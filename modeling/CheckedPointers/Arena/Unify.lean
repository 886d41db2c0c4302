import CheckedPointers.Arena.Solution
/-! # Equating entries

`constrainEq` asks two entries to have the same solution, level by level. Two pointers of the
same depth get one equality per level, outermost first, and their embedded functions are
equated; pointers of different depths cannot be lined up, so every slot of both is forced to
`wild` (two scalars, with no slot at all, are left alone). Two functions equate every return
alternative with every other, and parameters position by position; when their parameter counts
differ and both are prototyped, both are forced to `wild`. A pointer against a function equates
the pointer's embedded function with it, or forces both to `wild` when there is none. -/

namespace CheckedPointers

namespace Arena

variable (ar : Arena)

/-- Forces every slot of an entry, and of everything it embeds, to `wild`. -/
def constrainToWild (cs : ConstraintStore) (id : Nat) (reason : String) (loc : Option SourceLoc) :
    ConstraintStore :=
  (ar.varsOf id).toList.foldl (fun cs v => (cs.addWild v reason loc).2) cs

/-- Forces every alternative of a set to `wild`. -/
def constrainSetToWild (cs : ConstraintStore) (s : SortedSet Nat) (reason : String)
    (loc : Option SourceLoc) : ConstraintStore :=
  s.toList.foldl (fun cs c => ar.constrainToWild cs c reason loc) cs

/-- Equates two entries level by level. -/
def constrainEq (cs : ConstraintStore) (a b : Nat) (reason : String) (loc : Option SourceLoc) :
    ConstraintStore :=
  let bothWild := fun (cs : ConstraintStore) (why : String) =>
    ar.constrainToWild (ar.constrainToWild cs a why loc) b why loc
  let eqSets := fun (cs : ConstraintStore) (x y : SortedSet Nat) =>
    x.toList.attach.foldl (fun cs i =>
      y.toList.attach.foldl (fun cs j =>
        if _h : i.1 < a ∧ j.1 < b then constrainEq cs i.1 j.1 reason loc else cs) cs) cs
  if a == b then cs
  else
    match ar.get? a, ar.get? b with
    | some (.pointer pa), some (.pointer pb) =>
      if pa.slots.length != pb.slots.length then
        if !pa.slots.isEmpty || !pb.slots.isEmpty then bothWild cs Reason.shapeMismatch else cs
      else
        let cs := (pa.slots.zip pb.slots).foldl (fun cs (x, y) => (cs.addEq (.var x) (.var y) reason loc).2) cs
        match pa.function, pb.function with
        | some fa, some fb => if _h : fa < a ∧ fb < b then constrainEq cs fa fb reason loc else cs
        | _, _ => cs
    | some (.function fa), some (.function fb) =>
      let cs := eqSets cs fa.returns fb.returns
      if fa.params.length == fb.params.length then
        (fa.params.zip fb.params).foldl (fun cs (x, y) => eqSets cs x y) cs
      else if fa.hasPrototype && fb.hasPrototype then bothWild cs Reason.arityMismatch
      else cs
    | some (.pointer p), some (.function _) =>
      match p.function with
      | some inner => if _h : inner < a then constrainEq cs inner b reason loc else cs
      | none => bothWild cs Reason.shapeMismatch
    | some (.function _), some (.pointer p) =>
      match p.function with
      | some inner => if _h : inner < b then constrainEq cs inner a reason loc else cs
      | none => bothWild cs Reason.shapeMismatch
    | _, _ => cs
termination_by a + b

/-- Equates every alternative of one set with every alternative of the other. -/
def constrainEqSets (cs : ConstraintStore) (x y : SortedSet Nat) (reason : String)
    (loc : Option SourceLoc) : ConstraintStore :=
  x.toList.foldl (fun cs i => y.toList.foldl (fun cs j => ar.constrainEq cs i j reason loc) cs) cs

end Arena

end CheckedPointers
