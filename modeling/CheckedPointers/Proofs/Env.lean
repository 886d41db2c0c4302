import Mathlib.Algebra.Order.BigOperators.Group.Finset
import CheckedPointers.Constraint.Store

/-!
# Solver environments

An environment holds the qualifier of every registered slot, and `read` gives `ptr` past its end.
Two environments of one size are compared slot by slot (`Below`). The `weight` of an environment,
the sum of the heights of its slots, is at most three per slot and grows strictly when a slot
rises: it is the measure that bounds the solver's passes.

`raise` sets a registered slot to the join of its value and the bound (`read_raise`) and keeps
the size. It reports a change exactly when the slot rose, so a raise that reports nothing left the
environment as it was with the bound already absorbed, and a raise never climbs above an
environment that absorbs the bound (`Below.raise`).
-/

namespace CheckedPointers

namespace Qualifier

theorem le_iff {a b : Qualifier} : a ≤ b ↔ a.height ≤ b.height := Iff.rfl

theorem lt_iff {a b : Qualifier} : a < b ↔ a.height < b.height := Iff.rfl

theorem join_of_height_le {a b : Qualifier} (h : b.height ≤ a.height) : a.join b = a := by
  unfold join
  split
  · exact height_injective (by omega)
  · rfl

theorem join_of_height_lt {a b : Qualifier} (h : a.height < b.height) : a.join b = b := by
  unfold join
  split
  · rfl
  · omega

theorem le_trans {a b c : Qualifier} (hab : a ≤ b) (hbc : b ≤ c) : a ≤ c := Nat.le_trans hab hbc

theorem isWild_iff {q : Qualifier} : q.isWild = true ↔ q = wild := by
  cases q <;> simp [isWild]

theorem le_join_left (a b : Qualifier) : a ≤ a.join b := by
  rw [le_iff, height_join]; omega

theorem le_join_right (a b : Qualifier) : b ≤ a.join b := by
  rw [le_iff, height_join]; omega

theorem join_le {a b c : Qualifier} (ha : a ≤ c) (hb : b ≤ c) : a.join b ≤ c := by
  rw [le_iff, height_join]; rw [le_iff] at ha hb; omega

theorem eq_wild_of_wild_le {q : Qualifier} (h : wild ≤ q) : q = wild :=
  height_injective (Nat.le_antisymm (height_le_three q) h)

end Qualifier

namespace ConstraintStore

variable {env env' env'' p : Array Qualifier} {a : Atom} {q : Qualifier} {v : Nat}

@[simp] theorem read_const (env : Array Qualifier) (q : Qualifier) : read env (.const q) = q := rfl

theorem read_eq_getElem (h : v < env.size) : read env (.var v) = env[v] := by
  simp [read, Array.getElem?_eq_getElem h]

theorem read_of_size_le (h : env.size ≤ v) : read env (.var v) = .ptr := by
  simp [read, Array.getElem?_eq_none h]

/-! ## The slotwise order -/

/-- The environment `env` lies below `env'`: the same slots, each at most as high. -/
def Below (env env' : Array Qualifier) : Prop :=
  env.size = env'.size ∧ ∀ v, read env (.var v) ≤ read env' (.var v)

theorem Below.refl (env : Array Qualifier) : Below env env := ⟨rfl, fun _ => Nat.le_refl _⟩

theorem Below.trans (h : Below env env') (h' : Below env' env'') : Below env env'' :=
  ⟨h.1.trans h'.1, fun v => Nat.le_trans (h.2 v) (h'.2 v)⟩

theorem Below.antisymm (h : Below env env') (h' : Below env' env) : env = env' := by
  refine Array.ext h.1 fun v hv hv' => ?_
  rw [← read_eq_getElem hv, ← read_eq_getElem hv']
  exact Qualifier.height_injective (Nat.le_antisymm (h.2 v) (h'.2 v))

/-! ## Weight -/

/-- The sum of the heights of the slots. -/
def weight (env : Array Qualifier) : Nat :=
  ∑ v ∈ Finset.range env.size, (read env (.var v)).height

theorem weight_le (env : Array Qualifier) : weight env ≤ 3 * env.size := by
  calc weight env ≤ ∑ _v ∈ Finset.range env.size, 3 :=
        Finset.sum_le_sum fun v _ => Qualifier.height_le_three _
    _ = 3 * env.size := by simp [Nat.mul_comm]

theorem Below.weight_le (h : Below env env') : weight env ≤ weight env' := by
  unfold weight
  rw [h.1]
  exact Finset.sum_le_sum fun v _ => h.2 v

theorem Below.weight_lt (h : Below env env') (hv : v < env.size)
    (hlt : read env (.var v) < read env' (.var v)) : weight env < weight env' := by
  unfold weight
  rw [h.1]
  exact Finset.sum_lt_sum (fun v _ => h.2 v) ⟨v, Finset.mem_range.2 (h.1 ▸ hv), hlt⟩

/-! ## Raising an atom -/

theorem read_raise (env : Array Qualifier) (a : Atom) (q : Qualifier) (w : Nat) :
    read (raise env a q).1 (.var w) =
      if a = .var w ∧ w < env.size then (read env (.var w)).join q else read env (.var w) := by
  cases a with
  | const c => simp [raise]
  | var v =>
    simp only [raise, read, Array.getD_eq_getD_getElem?, Atom.var.injEq]
    by_cases hv : v = w
    · subst hv
      by_cases hs : v < env.size
      · simp only [Array.getElem?_eq_getElem hs, Option.getD_some, hs, decide_true, Bool.and_true,
          and_self, if_true]
        by_cases hlt : env[v].height < q.height
        · simp [hlt, hs, Qualifier.join_of_height_lt hlt]
        · simp [hlt, hs, Qualifier.join_of_height_le (Nat.le_of_not_lt hlt)]
      · simp [hs]
    · split <;> simp [hv]

@[simp] theorem size_raise (env : Array Qualifier) (a : Atom) (q : Qualifier) :
    (raise env a q).1.size = env.size := by
  cases a <;> simp only [raise]
  split <;> simp

theorem below_raise (env : Array Qualifier) (a : Atom) (q : Qualifier) :
    Below env (raise env a q).1 := by
  refine ⟨(size_raise env a q).symm, fun w => ?_⟩
  rw [read_raise]
  split
  · exact Qualifier.le_join_left _ _
  · exact Nat.le_refl _

/-- A raise stays below any environment of its size that absorbs the bound at the raised slot. -/
theorem Below.raise (h : Below env p) (hq : ∀ v, a = .var v → q ≤ read p (.var v)) :
    Below (raise env a q).1 p := by
  refine ⟨(size_raise env a q).trans h.1, fun w => ?_⟩
  rw [read_raise]
  split
  · next hw => exact Qualifier.join_le (h.2 w) (hq w hw.1)
  · exact h.2 w

theorem raise_flag (env : Array Qualifier) (a : Atom) (q : Qualifier) :
    (raise env a q).2 = true ↔ ∃ v, a = .var v ∧ v < env.size ∧ read env (.var v) < q := by
  cases a with
  | const c => simp [raise]
  | var v =>
    by_cases hs : v < env.size
    · simp only [raise, read, Array.getD_eq_getD_getElem?, Array.getElem?_eq_getElem hs,
        Option.getD_some, hs, decide_true, Bool.and_true, Atom.var.injEq, exists_eq_left', true_and,
        Qualifier.lt_iff]
      split <;> simp_all
    · simp [raise, hs]

theorem raise_eq_of_flag_false (h : (raise env a q).2 = false) : (raise env a q).1 = env := by
  cases a with
  | const c => rfl
  | var v =>
    simp only [raise] at h ⊢
    split at h
    · cases h
    · next hc => rw [if_neg hc]

theorem le_read_of_raise_settled (hv : v < env.size) (h : (raise env (.var v) q).2 = false) :
    q ≤ read env (.var v) := by
  rw [Qualifier.le_iff]
  refine Nat.le_of_not_lt fun hlt => ?_
  have hrose : (raise env (.var v) q).2 = true := (raise_flag env _ q).2 ⟨v, rfl, hv, hlt⟩
  simp [h] at hrose

theorem weight_lt_raise (h : (raise env a q).2 = true) : weight env < weight (raise env a q).1 := by
  obtain ⟨v, rfl, hv, hlt⟩ := (raise_flag env a q).1 h
  refine (below_raise env (.var v) q).weight_lt hv ?_
  rw [read_raise, if_pos ⟨rfl, hv⟩, Qualifier.join_of_height_lt hlt]
  exact hlt

end ConstraintStore

end CheckedPointers
