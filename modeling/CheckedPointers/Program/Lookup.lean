import CheckedPointers.Program.Basic
/-! # Looking up declarations

A function is seen two ways. From inside its body (in context) a key names the definition's own
entries. From a call site (out of context) a function key names its declaration: the key itself
when it is a declaration, the paired declaration when the front end recorded one, and otherwise a
declaration made up on first need from the definition's type, shared by every definition with
the same `file:line:name`. A parameter key seen out of context names that parameter of its
function's declaration. An unknown key names nothing. -/

namespace CheckedPointers

namespace Program

/-- Builds, once per unique key, the declaration of a definition that has none. -/
def synthesize (def_ : DeclKey) : ProgramM Nat := do
  let p ← get
  match p.synthesized.find? def_.uniqueKey with
  | some id => return id
  | none =>
    match p.functions.find? def_ with
    | none => throw (.unknownFunction def_)
    | some f =>
      let (id, p) := p.buildEntry def_.name f.ty { itype := f.itype, boundsInterop := f.boundsInterop }
      let p := match f.forcedWild with
        | some r => p.forceWild id r (some def_.loc)
        | none => p
      set { p with synthesized := p.synthesized.insert def_.uniqueKey id }
      return id

/-- The function entry call sites see for a function key. -/
def outOfContextFunction (key : DeclKey) : ProgramM Nat := do
  let p ← get
  match p.functions.find? key with
  | none => throw (.unknownFunction key)
  | some f =>
    if !f.isDefinition then return f.entry
    match f.declaration.bind p.functions.find? with
    | some d => return d.entry
    | none => synthesize key

/-- The declaration side of a definition, made up if there is none. -/
def declarationOf (def_ : DeclKey) : ProgramM Nat := outOfContextFunction def_

/-- The alternatives of parameter `index` of a function, seen from inside or outside. -/
def paramOf (function : DeclKey) (index : Nat) (inContext : Bool) : ProgramM (SortedSet Nat) := do
  let fv ← if inContext then
      match (← get).functions.find? function with
      | some f => pure f.entry
      | none => throw (.unknownFunction function)
    else outOfContextFunction function
  match (← get).arena.function? fv with
  | none => throw (.unknownFunction function)
  | some f =>
    match f.params[index]? with
    | some s => return s
    | none => throw (.paramOutOfRange function.name index f.params.length)

/-- The entries a declaration key names, in context or out of it. -/
def getVariable (key : DeclKey) (inContext : Bool) : ProgramM (SortedSet Nat) := do
  let p ← get
  let recorded := (p.entriesAt.find? key).getD SortedSet.empty
  if inContext then return recorded
  if p.functions.contains key then return SortedSet.singleton (← outOfContextFunction key)
  match p.paramOwners.find? key with
  | some (owner, index) => paramOf owner index false
  | none => return recorded

/-- The declaration made up for a definition, if one has been. -/
def synthesizedOf (p : Program) (def_ : DeclKey) : Option Nat := p.synthesized.find? def_.uniqueKey

/-- Definitions with no recorded paired declaration, in key order. -/
def undeclaredDefinitions (p : Program) : List DeclKey :=
  (p.functions.values.filter fun f =>
    f.isDefinition && match f.declaration with
      | some d => !p.functions.contains d
      | none => true).map FunctionDecl.key

/-- Every slot reachable from the declarations of rewritable files, with the first key (in key
order) that reaches it. -/
def slotSources (p : Program) : SortedMap Nat DeclKey :=
  p.entriesAt.toList.foldl (fun acc (key, set) =>
    if !p.isRewritable key.file then acc
    else set.toList.foldl (fun acc c =>
      (p.arena.varsOf c).toList.foldl (fun acc v => acc.insertIfAbsent v key) acc) acc) SortedMap.empty

/-- The slots reachable from each file's declarations, by file. -/
def slotsByFile (p : Program) : SortedMap String (SortedSet Nat) :=
  p.entriesAt.toList.foldl (fun acc (key, set) =>
    acc.alter key.file fun old =>
      set.toList.foldl (fun s c => s.union (p.arena.varsOf c)) (old.getD SortedSet.empty)) SortedMap.empty

end Program

end CheckedPointers
