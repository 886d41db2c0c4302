import CheckedPointers.Arena.Basic
/-! # Reading entries against a solution

Given the current qualifiers of the slots: the solved chain of a pointer, whether an entry is
checked (no slot anywhere in it is `wild`), the slots it reaches, and which of several
alternatives is the highest. Alternatives are ranked by their outermost solved qualifier (`ptr`
when there is no slot) and then by their number of slots; a function ranks as its highest
return, or lowest of all when it has none. The highest alternative has the greatest rank, and
of equals the smallest number.

Each view descends from an entry to the entries it refers to, whose numbers are smaller; the
recursion follows the numbers. -/

namespace CheckedPointers

namespace Arena

variable (ar : Arena) (cs : ConstraintStore)

/-- Solved qualifier of each slot, outermost first; nothing for a function. -/
def solvedChain (id : Nat) : List Qualifier :=
  match ar.get? id with
  | some (.pointer p) => p.slots.map cs.assignment
  | _ => []

/-- The solved qualifier of a pointer's outermost slot. -/
def outermost? (id : Nat) : Option Qualifier :=
  match ar.pointer? id with
  | some p => p.slots.head?.map cs.assignment
  | none => none

/-- A pointer entry is valid when it has a slot; a function entry always is. -/
def isValid (id : Nat) : Bool :=
  match ar.get? id with
  | some (.pointer p) => !p.slots.isEmpty
  | some (.function _) => true
  | none => false

/-- The entries an entry refers to: a pointer's function, a function's returns and parameters. -/
def children (id : Nat) : List Nat :=
  match ar.get? id with
  | some (.pointer p) => p.function.toList
  | some (.function f) => f.returns.toList ++ f.params.flatMap SortedSet.toList
  | none => []

/-- Every slot reachable from an entry. -/
def varsOf (id : Nat) : SortedSet Nat :=
  let own := match ar.get? id with
    | some (.pointer p) => SortedSet.ofList p.slots
    | _ => SortedSet.empty
  (ar.children id).attach.foldl (fun acc c =>
    if _h : c.1 < id then acc.union (varsOf c.1) else acc) own
termination_by id

/-- No slot anywhere in the entry is `wild`. -/
def isChecked (id : Nat) : Bool :=
  let own := match ar.get? id with
    | some (.pointer p) => p.slots.all fun v => !cs.isWild v
    | _ => true
  own && (ar.children id).attach.all fun c => if _h : c.1 < id then isChecked c.1 else true
termination_by id

/-- Strictly lower rank: a lower outermost qualifier, or the same with fewer slots. -/
def rankLt (r s : Nat × Nat) : Bool := r.1 < s.1 || (r.1 == s.1 && r.2 < s.2)

/-- The greater of two ranks. -/
def rankMax (r s : Nat × Nat) : Nat × Nat := if rankLt r s then s else r

/-- The rank of an entry: the height of its outermost solved qualifier and its slot count; a
function takes the greatest rank of its returns. -/
def rank (id : Nat) : Nat × Nat :=
  match ar.get? id with
  | some (.pointer p) => (((p.slots.head?.map cs.assignment).getD .ptr).height, p.slots.length)
  | some (.function f) =>
    f.returns.toList.attach.foldl (fun best c =>
      if _h : c.1 < id then rankMax best (rank c.1) else best) (0, 0)
  | none => (0, 0)
termination_by id
decreasing_by all_goals assumption

/-- Of the candidates, the one of greatest rank, the first of equals. -/
def pick (cands : List Nat) : Option Nat :=
  cands.foldl (fun best c =>
    match best with
    | none => some c
    | some b => if rankLt (ar.rank cs b) (ar.rank cs c) then some c else some b) none

/-- The highest alternative of a set. -/
def highest (s : SortedSet Nat) : Option Nat := ar.pick cs s.toList

/-- The highest valid pointer alternative whose outermost slot is not `wild`. -/
def highestNonWild (s : SortedSet Nat) : Option Nat :=
  ar.pick cs (s.toList.filter fun c =>
    ar.isValid c && match ar.outermost? cs c with
      | some q => !q.isWild
      | none => false)

/-- Two entries have the same solution: two pointers have equal solved chains and equal
embedded functions (or none), two functions have as many parameters and the same solutions for
their highest return and parameter alternatives. -/
def solutionEqual (a b : Nat) : Bool :=
  let sameSets := fun (x y : SortedSet Nat) =>
    match ar.highest cs x, ar.highest cs y with
    | some hx, some hy => if _h : hx < a ∧ hy < b then solutionEqual hx hy else false
    | none, none => true
    | _, _ => false
  match ar.get? a, ar.get? b with
  | some (.pointer pa), some (.pointer pb) =>
    ar.solvedChain cs a == ar.solvedChain cs b &&
      match pa.function, pb.function with
      | some fa, some fb => if _h : fa < a ∧ fb < b then solutionEqual fa fb else false
      | none, none => true
      | _, _ => false
  | some (.function fa), some (.function fb) =>
    fa.params.length == fb.params.length && sameSets fa.returns fb.returns &&
      (fa.params.zip fb.params).all fun (x, y) => sameSets x y
  | _, _ => false
termination_by a + b

/-- The slots of a pointer with their solutions, then the embedded function; a function as
`fn(p0, p1) -> ret`, each part the highest alternative of its set or `_` for none. -/
def chainText (id : Nat) : String :=
  match ar.get? id with
  | some (.pointer p) =>
    let slots := ", ".intercalate (p.slots.map fun v => "q" ++ toString v ++ "=" ++ (cs.assignment v).name)
    let inner := match p.function with
      | some f => if _h : f < id then " " ++ chainText f else ""
      | none => ""
    "[" ++ slots ++ "]" ++ inner
  | some (.function f) =>
    let setText := fun (s : SortedSet Nat) =>
      match ar.highest cs s with
      | some c => if _h : c < id then chainText c else "_"
      | none => "_"
    "fn(" ++ ", ".intercalate (f.params.map setText) ++ ") -> " ++ setText f.returns
  | none => ""
termination_by id

/-- An entry with its solution, as `name: [q0=Ptr, q1=Wild]`. -/
def solvedText (id : Nat) : String :=
  match ar.get? id with
  | some e => e.name ++ ": " ++ ar.chainText cs id
  | none => ""

end Arena

end CheckedPointers
