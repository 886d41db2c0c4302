import CheckedPointers.Arena.Solution
/-! # Casts between entries

A value flowing from a checked source needs an explicit cast once the program is rewritten when
its destination is unchecked, or is to be treated as unchecked, or carries an interop annotation
whose solution differs from the source's. An unchecked source needs no cast. -/

namespace CheckedPointers

/-- How the destination of a flow is judged. -/
inductive CastPolicy where
  /-- Follow the solved qualifiers. -/
  | inferred
  /-- Treat the destination as unchecked whatever its solution. -/
  | forceWild
  deriving DecidableEq, Repr

namespace Arena

/-- Whether the flow from `src` to `dst` needs an explicit cast. -/
def needsCast (ar : Arena) (cs : ConstraintStore) (src dst : Nat) (policy : CastPolicy) : Bool :=
  if !ar.isChecked cs src then false
  else
    let dstItype := match ar.pointer? dst with
      | some p => p.itype.isSome
      | none => false
    if dstItype && !ar.solutionEqual cs src dst then true
    else !ar.isChecked cs dst || policy == .forceWild

end Arena

end CheckedPointers
