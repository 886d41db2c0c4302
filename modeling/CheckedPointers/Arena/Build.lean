import CheckedPointers.Arena.Basic
import CheckedPointers.Fact.Basic
/-! # Building entries from type shapes

A bare function type gives a function entry; any other type gives a pointer entry with one fresh
slot per level, outermost first (none for a scalar). An array level's slot is bounded below by
`arr` as soon as it is created. The slots form a chain; an embedded signature is built next,
with no annotations; the pointer entry is allocated last. A function builds its return, then its
parameters in order, and is allocated after them, so every id it holds is smaller than its own.

Dereferencing drops the outermost slot into a new entry (with one slot left it names the
embedded function, with none nothing); taking an address adds a fresh outermost slot. -/

namespace CheckedPointers

namespace Arena

mutual

/-- Builds the entry of a type shape and gives its number. -/
def build (a : Arena) (cs : ConstraintStore) (name : String) :
    TypeShape → Annotations → Nat × Arena × ConstraintStore
  | ⟨_, [], some f⟩, ann => buildFunction a cs name f ann
  | ⟨base, levels, function⟩, ann =>
    let (slots, cs) := levels.foldl (fun (acc : List Nat × ConstraintStore) l =>
      let (v, cs) := acc.2.fresh
      let cs := match l with
        | .array => (cs.addGeq v .arr Reason.arrayDecl none).2
        | .pointer => cs
      (acc.1 ++ [v], cs)) ([], cs)
    let cs := cs.registerChain slots
    let (inner, a, cs) := buildEmbedded a cs name function
    let (id, a) := a.alloc (.pointer ⟨name, base, slots, inner, levels.head? == some .array,
      ann.itype, ann.boundsInterop, SortedSet.empty⟩)
    (id, a, cs)

/-- Builds the function a pointer points to, with no annotations. -/
def buildEmbedded (a : Arena) (cs : ConstraintStore) (name : String) :
    Option FunctionShape → Option Nat × Arena × ConstraintStore
  | none => (none, a, cs)
  | some f =>
    let (id, a, cs) := buildFunction a cs name f {}
    (some id, a, cs)

/-- Builds a function entry: return, then parameters, then the function itself. -/
def buildFunction (a : Arena) (cs : ConstraintStore) (name : String) :
    FunctionShape → Annotations → Nat × Arena × ConstraintStore
  | ⟨ret, params, hasPrototype, variadic⟩, ann =>
    let (r, a, cs) := build a cs name ret { itype := ann.itype, boundsInterop := ann.boundsInterop }
    let (ps, a, cs) := buildParams a cs params
    let (id, a) := a.alloc (.function ⟨name, SortedSet.singleton r, ps.map SortedSet.singleton,
      ann.hasBody, hasPrototype, variadic⟩)
    (id, a, cs)

/-- Builds the parameters of a signature in order. -/
def buildParams (a : Arena) (cs : ConstraintStore) : List ParamShape → List Nat × Arena × ConstraintStore
  | [] => ([], a, cs)
  | ⟨name, ty, _, itype⟩ :: rest =>
    let (id, a, cs) := build a cs name ty { itype := itype }
    let (ids, a, cs) := buildParams a cs rest
    (id :: ids, a, cs)

end

/-- The entry one level in. A function cannot be dereferenced; a pointer with one slot names its
embedded function, and one with no slot names nothing. -/
def dereference (a : Arena) (id : Nat) : Except Error (Option Nat × Arena) :=
  match a.get? id with
  | some (.function _) => .error (.derefFunction id)
  | some (.pointer p) =>
    match p.slots with
    | [] => .ok (none, a)
    | [_] => .ok (p.function, a)
    | _ :: rest =>
      let derived : PointerEntry :=
        { p with slots := rest, arrPresent := false, itype := none, boundsInterop := false,
                 arguments := SortedSet.empty }
      let (d, a) := a.alloc (.pointer derived)
      .ok (some d, a)
  | none => .ok (none, a)

/-- The entry one level out: a fresh outermost slot over the existing ones. The address of a
function is a one-level pointer to it. -/
def addressOf (a : Arena) (cs : ConstraintStore) (id : Nat) : Nat × Arena × ConstraintStore :=
  let (outer, cs) := cs.fresh
  let derived : PointerEntry := match a.get? id with
    | some (.pointer p) =>
      { p with slots := outer :: p.slots, arrPresent := false, itype := none, boundsInterop := false,
               arguments := SortedSet.empty }
    | some (.function f) => ⟨f.name, "", [outer], some id, false, none, false, SortedSet.empty⟩
    | none => ⟨"", "", [outer], none, false, none, false, SortedSet.empty⟩
  let cs := cs.registerChain derived.slots
  let (d, a) := a.alloc (.pointer derived)
  (d, a, cs)

end Arena

end CheckedPointers
