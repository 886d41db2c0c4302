/-! # Code point ranges

A character class of a standard is kept as a list of closed ranges of code points, in increasing
order. Membership is a search through the list; `inRanges_iff` says it is membership in one of
the ranges. -/

namespace CheckedPointers.Text

/-- Whether `n` lies in one of the closed ranges. -/
def inRanges (n : Nat) : List (Nat × Nat) → Bool
  | [] => false
  | (lo, hi) :: rs => (lo ≤ n && n ≤ hi) || inRanges n rs

theorem inRanges_iff {n : Nat} {rs : List (Nat × Nat)} :
    inRanges n rs = true ↔ ∃ r ∈ rs, r.1 ≤ n ∧ n ≤ r.2 := by
  induction rs with
  | nil => simp [inRanges]
  | cons r rs ih =>
    obtain ⟨lo, hi⟩ := r
    simp [inRanges, ih]

end CheckedPointers.Text
