import CheckedPointers.Program.Lookup
/-! # Linking compilation units

After every fact is recorded and before the first solve, declarations that name one entity are
made to agree, in four steps:

1. the entries recorded at one key are equated in sequence, at the key's location;
2. the global variables of one name are equated in sequence;
3. unless separate declarations are kept apart, the declarations of one global function are
   equated in sequence: its global non-defining declarations in key order, then the made-up
   declarations of its global definitions without one;
4. every function never seen with a body and not trusted gets the extern policy: each return is
   forced to `wild`, and each pointer parameter keeps a checked outermost level over `wild` inner
   levels. An interop annotation pins the outermost level of a return or parameter instead; the
   levels below it are still forced.

Names are visited in order, entries by number. -/

namespace CheckedPointers

/-- How much each linking step did. -/
structure LinkStats where
  declGroups : Nat
  globalGroups : Nat
  functionPairs : Nat
  externs : Nat
  deriving Repr, Inhabited

namespace Program

/-- Equates each entry with the next. -/
def equateInSequence (p : Program) (ids : List Nat) (loc : Option SourceLoc) : Program :=
  (ids.zip ids.tail).foldl (fun p (a, b) =>
    { p with store := p.arena.constrainEq p.store a b Reason.link loc }) p

/-- Pins the outermost slot of an annotated pointer to the annotation's qualifier; tells whether
it did. -/
def pinItype (p : Program) (id : Nat) : Bool × Program :=
  match p.arena.pointer? id with
  | some ptr =>
    match ptr.itype.bind Qualifier.ofItype?, ptr.slots.head? with
    | some q, some v => (true, { p with store := (p.store.addEq (.var v) (.const q) Reason.itype none).2 })
    | _, _ => (false, p)
  | none => (false, p)

/-- Forces everything below the outermost level of an entry to `wild`; a function entry, having
no outermost level, is forced whole. -/
def forceInnerLevels (p : Program) (id : Nat) (reason : String) : Program :=
  match p.arena.get? id with
  | some (.pointer ptr) =>
    let p := ptr.slots.drop 1 |>.foldl (fun p v => { p with store := (p.store.addWild v reason none).2 }) p
    match ptr.function with
    | some f => p.forceWild f reason none
    | none => p
  | some (.function _) => p.forceWild id reason none
  | none => p

/-- The extern policy of one function entry. -/
def applyExternPolicy (p : Program) (id : Nat) : Program :=
  match p.arena.function? id with
  | none => p
  | some f =>
    let p := f.returns.toList.foldl (fun p r =>
      let (pinned, p) := p.pinItype r
      if pinned then p.forceInnerLevels r Reason.externReturn
      else p.forceWild r Reason.externReturn none) p
    (f.params.flatMap SortedSet.toList).foldl (fun p q =>
      (p.pinItype q).2.forceInnerLevels q Reason.externParam) p

/-- Steps 1 and 2: equates the entries of each key recorded with more than one, then the global
variables of each name declared more than once; gives how many groups of each. -/
def linkGroups : ProgramM (Nat × Nat) := do
  -- 1. several declarators at one key
  let sameKey := (← get).entriesAt.toList.filter fun e => e.2.size > 1
  modify fun p => sameKey.foldl (fun p (k, s) => p.equateInSequence s.toList (some k.loc)) p
  -- 2. global variables by name
  let globals := (← get).globals.values.filter fun s => s.size > 1
  modify fun p => globals.foldl (fun p s => p.equateInSequence s.toList none) p
  return (sameKey.length, globals.length)

/-- Steps 3 and 4: equates the declarations of each global function, then applies the extern
policy; gives how many pairs were equated and how many functions are extern. -/
def linkFunctions : ProgramM (Nat × Nat) := do
  -- 3. declarations of each global function
  let mut pairs := 0
  if !(← get).options.separateMultipleFuncDecls then
    let p ← get
    let mut byName : SortedMap String (List Nat) := p.functions.values.foldl (fun m f =>
      if f.isGlobal && !f.isDefinition then m.alter f.key.name fun l => l.getD [] ++ [f.entry] else m)
      SortedMap.empty
    for def_ in p.undeclaredDefinitions do
      if ((← get).functions.find? def_).any (·.isGlobal) then
        let synth ← declarationOf def_
        byName := byName.alter def_.name fun l => l.getD [] ++ [synth]
    for decls in byName.values do
      modify fun p => p.equateInSequence decls none
      pairs := pairs + (decls.length - 1)
  -- 4. functions never seen with a body
  let p ← get
  let externs := (p.bodies.toList.filter fun (name, hasBody) => !hasBody && !p.options.isSafeExtern name).map Prod.fst
  for name in externs do
    let entries := ((← get).functions.values.filter fun f => f.key.name == name).map FunctionDecl.entry
    modify fun p => entries.foldl applyExternPolicy p
  return (pairs, externs.length)

/-- Links every recorded declaration; see the module comment. -/
def link : ProgramM LinkStats := do
  let (declGroups, globalGroups) ← linkGroups
  let (pairs, externs) ← linkFunctions
  return ⟨declGroups, globalGroups, pairs, externs⟩

end Program

end CheckedPointers
