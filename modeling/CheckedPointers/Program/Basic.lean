import CheckedPointers.Arena.Build
import CheckedPointers.Arena.Unify
import CheckedPointers.Options
/-! # The program store

The store maps every declaration key to the entries recorded for it, keeps the name-keyed tables
that linking reads (global variables, functions by key, whether a function name was ever seen
with a body), remembers which function each parameter key belongs to, and owns the arena and
the constraint store. A file is rewritable until a declaration in it says otherwise.

Recording a declaration: a function builds one function entry, and its parameters' keys are
recorded with the parameter entries and their owner (the first owner wins); a parameter key
already owned by a function only takes the declaration's policy; any other declaration with a
pointer or array level builds one pointer entry, and a global variable is also recorded under its
name. A declaration inside a macro expansion, or in a file that cannot be rewritten, has every
slot forced to `wild` at its own location. -/

namespace CheckedPointers

/-- What the store keeps of one function declaration or definition. -/
structure FunctionDecl where
  key : DeclKey
  entry : Nat
  ty : TypeShape
  isDefinition : Bool
  isGlobal : Bool
  /-- For a definition: the declaration the front end paired it with. -/
  declaration : Option DeclKey
  itype : Option String
  boundsInterop : Bool
  /-- The reason every slot of the function is forced to `wild`, if one is. -/
  forcedWild : Option String
  deriving Inhabited

/-- Entries by declaration key and by name, the arena and the constraints. -/
structure Program where
  arena : Arena := Arena.empty
  store : ConstraintStore := ConstraintStore.empty
  options : Options := Options.defaults
  entriesAt : SortedMap DeclKey (SortedSet Nat) := SortedMap.empty
  /-- Global variable name to the pointer entries declared with it. -/
  globals : SortedMap String (SortedSet Nat) := SortedMap.empty
  functions : SortedMap DeclKey FunctionDecl := SortedMap.empty
  /-- Function name to whether a body was ever seen. -/
  bodies : SortedMap String Bool := SortedMap.empty
  /-- Parameter key to its function and position. -/
  paramOwners : SortedMap DeclKey (DeclKey × Nat) := SortedMap.empty
  /-- Declarations made up for definitions without one, by the definition's unique key. -/
  synthesized : SortedMap String Nat := SortedMap.empty
  /-- Source file to whether it may be rewritten. -/
  files : SortedMap String Bool := SortedMap.empty
  deriving Inhabited

/-- Engine operations that may fail; a failure keeps the changes made before it. -/
abbrev ProgramM := EStateM Error Program

namespace Program

def ofOptions (o : Options) : Program := { options := o }

/-- Files that may be rewritten, in order. -/
def rewritableFiles (p : Program) : List String :=
  (p.files.toList.filter fun e => e.2).map Prod.fst

def isRewritable (p : Program) (file : String) : Bool := (p.files.find? file).getD false

/-- Builds the entry of a type shape. -/
def buildEntry (p : Program) (name : String) (ty : TypeShape) (ann : Annotations) : Nat × Program :=
  let (id, arena, store) := p.arena.build p.store name ty ann
  (id, { p with arena := arena, store := store })

/-- Forces every slot of an entry to `wild`. -/
def forceWild (p : Program) (id : Nat) (reason : String) (loc : Option SourceLoc) : Program :=
  { p with store := p.arena.constrainToWild p.store id reason loc }

/-- Adds `id` to the entries recorded at `key`. -/
def recordAt (p : Program) (key : DeclKey) (id : Nat) : Program :=
  { p with entriesAt := p.entriesAt.alter key fun s => (s.getD SortedSet.empty).insert id }

/-- The reason a declaration's slots are all forced to `wild`, if one is. -/
def DeclFact.forcedReason (d : DeclFact) : Option String :=
  if d.inMacro then some Reason.macroDecl
  else if !d.rewritable then some Reason.notRewritable
  else none

/-- Records a function declaration or definition. -/
def addFunction (p : Program) (d : DeclFact) (ann : Annotations) (forced : Option String) : Program :=
  let (id, p) := p.buildEntry d.name d.ty ann
  let p := match forced with
    | some r => p.forceWild id r (some d.key.loc)
    | none => p
  let p := p.recordAt d.key id
  let p := { p with bodies := p.bodies.alter d.name fun b => b.getD false || d.isDefinition }
  let p := match d.ty.function, p.arena.function? id with
    | some shape, some f =>
      ((shape.params.zip f.params).zipIdx).foldl (fun (p : Program) (x : (ParamShape × SortedSet Nat) × Nat) =>
        let ((ps, set), i) := x
        match ps.key with
        | some pk =>
          let p := { p with paramOwners := p.paramOwners.insertIfAbsent pk (d.key, i) }
          { p with entriesAt := p.entriesAt.alter pk fun s => (s.getD SortedSet.empty).union set }
        | none => p) p
    | _, _ => p
  let fd : FunctionDecl :=
    ⟨d.key, id, d.ty, d.isDefinition, d.isGlobal, d.declaration, d.itype, d.boundsInterop, forced⟩
  { p with functions := p.functions.insertIfAbsent d.key fd }

/-- Records a declaration fact. A declaration with no pointer level records nothing. -/
def addDeclaration (p : Program) (d : DeclFact) : Program :=
  let p := { p with files := p.files.alter d.key.file fun r => r.getD true && d.rewritable }
  let forced := DeclFact.forcedReason d
  let ann : Annotations := { itype := d.itype, boundsInterop := d.boundsInterop, hasBody := d.isDefinition }
  if d.kind == .function && d.ty.isFunction then p.addFunction d ann forced
  else if d.kind == .parameter && p.paramOwners.contains d.key then
    match forced with
    | some r =>
      let set := (p.entriesAt.find? d.key).getD SortedSet.empty
      { p with store := p.arena.constrainSetToWild p.store set r (some d.key.loc) }
    | none => p
  else if !d.ty.isPointerLike then p
  else
    let (id, p) := p.buildEntry d.name d.ty ann
    let p := match forced with
      | some r => p.forceWild id r (some d.key.loc)
      | none => p
    let p := p.recordAt d.key id
    if d.isGlobal && d.kind == .variable then
      { p with globals := p.globals.alter d.name fun s => (s.getD SortedSet.empty).insert id }
    else p

end Program

end CheckedPointers
