import Mathlib.Data.Prod.Lex
import CheckedPointers.Proofs.Ascending
import CheckedPointers.Proofs.SessionBounds

/-!
# The highest alternative of a set

A position of a function, or the value of an expression, may have several alternative entries;
the one that is displayed, compared and reconciled is the highest. Entries are ranked by the
height of their outermost solved qualifier (`ptr` when there is no slot) and then by their number
of slots, in lexicographic order; a function ranks as its highest return, or as a pointer with no
slot when it has none (`Arena.rank_function`).

The highest alternative of a set is its member of greatest rank, and of the members of that rank
the one with the smallest number (`Arena.highest_selects_greatest_rank`): the selection keeps the
first candidate of each rank it meets, and a set lists its members ascending. The highest
alternative that is not `wild` makes the same selection among the pointers with a slot whose
outermost slot is not `wild`.
-/

namespace CheckedPointers

namespace Arena

variable {ar : Arena} {cs : ConstraintStore}

/-! ## Ranks in lexicographic order -/

theorem rankLt_iff (r s : Nat × Nat) : rankLt r s = true ↔ toLex r < toLex s := by
  simp [rankLt, Prod.Lex.toLex_lt_toLex]

theorem rankMax_zero_left (s : Nat × Nat) : rankMax (0, 0) s = s := by
  unfold rankMax rankLt
  split
  · rfl
  · next h =>
    obtain ⟨a, b⟩ := s
    simp only [Bool.or_eq_true, decide_eq_true_eq, Bool.and_eq_true, beq_iff_eq, not_or,
      not_and, Nat.not_lt] at h
    obtain ⟨ha, hb⟩ := h
    have ha' : a = 0 := Nat.le_zero.1 ha
    subst ha'
    simp [Nat.le_zero.1 (hb rfl)]

theorem rank_pointer {id : Nat} {pe : PointerEntry} (hp : ar.pointer? id = some pe) :
    ar.rank cs id = (((pe.slots.head?.map cs.assignment).getD .ptr).height, pe.slots.length) := by
  rw [rank.eq_def, pointer?_eq_some.1 hp]

/-! ## Selecting among candidates -/

/-- `x` is a member of `l` that satisfies `P`, and every other member that satisfies `P` ranks
lower, or as high with a larger number. -/
def IsHighest (ar : Arena) (cs : ConstraintStore) (P : Nat → Prop) (l : List Nat) (x : Nat) : Prop :=
  x ∈ l ∧ P x ∧ ∀ y ∈ l, P y →
    toLex (ar.rank cs y) < toLex (ar.rank cs x) ∨ (ar.rank cs y = ar.rank cs x ∧ x ≤ y)

theorem IsHighest.unique {P : Nat → Prop} {l : List Nat} {x x' : Nat} (h : ar.IsHighest cs P l x)
    (h' : ar.IsHighest cs P l x') : x = x' := by
  rcases h.2.2 x' h'.1 h'.2.1 with hlt | ⟨heq, hle⟩ <;>
    rcases h'.2.2 x h.1 h.2.1 with hlt' | ⟨heq', hle'⟩
  · exact absurd (hlt.trans hlt') (lt_irrefl _)
  · rw [heq'] at hlt
    exact absurd hlt (lt_irrefl _)
  · rw [heq] at hlt'
    exact absurd hlt' (lt_irrefl _)
  · omega

theorem IsHighest.congr {P Q : Nat → Prop} {l : List Nat} (h : ∀ y ∈ l, P y ↔ Q y) {x : Nat} :
    ar.IsHighest cs P l x ↔ ar.IsHighest cs Q l x := by
  constructor
  · rintro ⟨hx, hp, hmax⟩
    exact ⟨hx, (h x hx).1 hp, fun y hy hq => hmax y hy ((h y hy).2 hq)⟩
  · rintro ⟨hx, hq, hmax⟩
    exact ⟨hx, (h x hx).2 hq, fun y hy hp => hmax y hy ((h y hy).1 hp)⟩

theorem isHighest_filter {q : Nat → Bool} {l : List Nat} {x : Nat} :
    ar.IsHighest cs (fun _ => True) (l.filter q) x ↔ ar.IsHighest cs (fun y => q y = true) l x := by
  simp only [IsHighest, List.mem_filter, true_and, forall_const, and_imp, and_assoc]

/-- What `pick` holds after meeting `l`, once it holds the candidate `b`. -/
def pickFrom (ar : Arena) (cs : ConstraintStore) (b : Nat) (l : List Nat) : Nat :=
  l.foldl (fun b c => if rankLt (ar.rank cs b) (ar.rank cs c) then c else b) b

theorem pickFrom_cons (b c : Nat) (l : List Nat) :
    ar.pickFrom cs b (c :: l) = ar.pickFrom cs (if rankLt (ar.rank cs b) (ar.rank cs c) then c else b) l :=
  rfl

theorem pick_cons (c : Nat) (l : List Nat) : ar.pick cs (c :: l) = some (ar.pickFrom cs c l) := by
  unfold pick pickFrom
  rw [List.foldl_cons]
  -- from a held candidate on, the fold of `pick` is that of `pickFrom` under `some`
  induction l generalizing c with
  | nil => rfl
  | cons d l ih =>
    rw [List.foldl_cons, List.foldl_cons, ← ih]
    dsimp only
    split <;> rfl

theorem pick_eq_none_iff {l : List Nat} : ar.pick cs l = none ↔ l = [] := by
  cases l with
  | nil => exact ⟨fun _ => rfl, fun _ => rfl⟩
  | cons c l => simp [pick_cons]

theorem rank_lt_of_lt_of_holds {b c x : Nat} (hbc : toLex (ar.rank cs b) < toLex (ar.rank cs c))
    (h : toLex (ar.rank cs c) < toLex (ar.rank cs x) ∨ (ar.rank cs c = ar.rank cs x ∧ x ≤ c)) :
    toLex (ar.rank cs b) < toLex (ar.rank cs x) := by
  rcases h with h | ⟨h, -⟩
  · exact hbc.trans h
  · rw [← h]
    exact hbc

theorem holds_of_rank_le {b c x : Nat} (hcb : toLex (ar.rank cs c) ≤ toLex (ar.rank cs b)) (hbc : b < c)
    (h : toLex (ar.rank cs b) < toLex (ar.rank cs x) ∨ (ar.rank cs b = ar.rank cs x ∧ x ≤ b)) :
    toLex (ar.rank cs c) < toLex (ar.rank cs x) ∨ (ar.rank cs c = ar.rank cs x ∧ x ≤ c) := by
  rcases h with h | ⟨h, hxb⟩
  · exact .inl (lt_of_le_of_lt hcb h)
  · rw [h] at hcb
    rcases lt_or_eq_of_le hcb with h' | h'
    · exact .inl h'
    · exact .inr ⟨toLex.injective h', Nat.le_of_lt (Nat.lt_of_le_of_lt hxb hbc)⟩

theorem isHighest_pickFrom : ∀ (b : Nat) (l : List Nat), (b :: l).Pairwise (· < ·) →
    ar.IsHighest cs (fun _ => True) (b :: l) (ar.pickFrom cs b l)
  | b, [], _ => by
    refine ⟨List.mem_singleton_self b, trivial, fun y hy _ => .inr ?_⟩
    rw [List.mem_singleton.1 hy]
    exact ⟨rfl, Nat.le_refl b⟩
  | b, c :: l, hl => by
    rw [pickFrom_cons]
    obtain ⟨hb, hcl⟩ := List.pairwise_cons.1 hl
    by_cases hbc : rankLt (ar.rank cs b) (ar.rank cs c) = true
    · -- `c` outranks `b`, so the highest of `c :: l` outranks `b` too
      rw [if_pos hbc]
      obtain ⟨hx, -, hmax⟩ := isHighest_pickFrom c l hcl
      have hbx := rank_lt_of_lt_of_holds ((rankLt_iff _ _).1 hbc) (hmax c List.mem_cons_self trivial)
      refine ⟨List.mem_cons_of_mem b hx, trivial, fun y hy _ => ?_⟩
      rcases List.mem_cons.1 hy with rfl | hy
      · exact .inl hbx
      · exact hmax y hy trivial
    · -- `b` holds against `c`, so the highest of `b :: l` holds against `c` as well
      rw [if_neg hbc]
      have hbl : (b :: l).Pairwise (· < ·) :=
        List.pairwise_cons.2 ⟨fun y hy => hb y (List.mem_cons_of_mem c hy), (List.pairwise_cons.1 hcl).2⟩
      obtain ⟨hx, -, hmax⟩ := isHighest_pickFrom b l hbl
      have hcb : toLex (ar.rank cs c) ≤ toLex (ar.rank cs b) := not_lt.1 fun h => hbc ((rankLt_iff _ _).2 h)
      have hcx := holds_of_rank_le hcb (hb c List.mem_cons_self) (hmax b List.mem_cons_self trivial)
      refine ⟨List.cons_subset_cons b (List.subset_cons_self c l) hx, trivial, fun y hy _ => ?_⟩
      rcases List.mem_cons.1 hy with rfl | hy
      · exact hmax y List.mem_cons_self trivial
      rcases List.mem_cons.1 hy with rfl | hy
      · exact hcx
      · exact hmax y (List.mem_cons_of_mem b hy) trivial

theorem pick_eq_some_iff {l : List Nat} (hl : l.Pairwise (· < ·)) {x : Nat} :
    ar.pick cs l = some x ↔ ar.IsHighest cs (fun _ => True) l x := by
  cases l with
  | nil => exact ⟨fun h => (nomatch h), fun h => (nomatch h.1)⟩
  | cons c l =>
    rw [pick_cons, Option.some.injEq]
    exact ⟨fun h => h ▸ isHighest_pickFrom c l hl, fun h => (isHighest_pickFrom c l hl).unique h⟩

/-! ## The rank of a function -/

theorem foldl_rankMax_pickFrom : ∀ (b : Nat) (l : List Nat),
    l.foldl (fun best c => rankMax best (ar.rank cs c)) (ar.rank cs b) = ar.rank cs (ar.pickFrom cs b l)
  | _, [] => rfl
  | b, c :: l => by
    rw [List.foldl_cons, pickFrom_cons, ← foldl_rankMax_pickFrom]
    congr 1
    unfold rankMax
    split <;> rfl

/-- Where every entry embeds only entries allocated before it, a function ranks as its highest
return, or as a pointer with no slot when it has none. -/
theorem rank_function (hback : ∀ id, ∀ c ∈ ar.children id, c < id) {id : Nat} {fe : FunctionEntry}
    (hf : ar.function? id = some fe) :
    ar.rank cs id = ((ar.highest cs fe.returns).map (ar.rank cs)).getD (Qualifier.ptr.height, 0) := by
  have hget := function?_eq_some.1 hf
  have hret : ∀ c ∈ fe.returns.toList, c < id := fun c hc => hback id c (by
    rw [children, hget]
    exact List.mem_append_left _ hc)
  rw [rank.eq_def, hget]
  dsimp only
  rw [foldl_attach_guard hret (fun best c => rankMax best (ar.rank cs c))]
  unfold highest
  cases fe.returns.toList with
  | nil => rfl
  | cons c l =>
    rw [pick_cons, List.foldl_cons, rankMax_zero_left]
    exact foldl_rankMax_pickFrom c l

/-! ## The highest alternatives of a set -/

/-- The entry is a pointer with a slot, and its outermost slot is not solved to `wild`. -/
def NonWildPointer (ar : Arena) (cs : ConstraintStore) (y : Nat) : Prop :=
  ∃ pe v, ar.pointer? y = some pe ∧ pe.slots.head? = some v ∧ cs.assignment v ≠ .wild

theorem highestNonWild_eq_pick (s : SortedSet Nat) :
    ar.highestNonWild cs s =
      ar.pick cs (s.toList.filter fun c => ar.isValid c && (ar.outermost? cs c).any fun q => !q.isWild) := by
  unfold highestNonWild
  congr 2
  funext c
  cases ar.outermost? cs c <;> rfl

theorem nonWild_iff (y : Nat) :
    (ar.isValid y && (ar.outermost? cs y).any fun q => !q.isWild) = true ↔ ar.NonWildPointer cs y := by
  unfold isValid outermost? NonWildPointer pointer?
  cases ar.get? y with
  | none => simp
  | some e =>
    cases e with
    | function f => simp
    | pointer pe =>
      cases h : pe.slots with
      | nil => simp [h]
      | cons v rest => simp [h, ← Qualifier.isWild_iff]

/-- The highest alternative of a set is its member of greatest rank, the lowest-numbered of that
rank, and nothing only for an empty set; likewise among the pointers that are not `wild`. -/
theorem highest_selects_greatest_rank (hback : ∀ id, ∀ c ∈ ar.children id, c < id)
    {S : SortedSet Nat} (hS : S.Ascending) :
    (ar.highest cs S = none ↔ S.toList = []) ∧
    (∀ x, ar.highest cs S = some x ↔ ar.IsHighest cs (fun _ => True) S.toList x) ∧
    (∀ id pe, ar.pointer? id = some pe →
      ar.rank cs id = (((pe.slots.head?.map cs.assignment).getD .ptr).height, pe.slots.length)) ∧
    (∀ id fe, ar.function? id = some fe →
      ar.rank cs id = ((ar.highest cs fe.returns).map (ar.rank cs)).getD (Qualifier.ptr.height, 0)) ∧
    (ar.highestNonWild cs S = none ↔ ∀ y ∈ S.toList, ¬ ar.NonWildPointer cs y) ∧
    ∀ x, ar.highestNonWild cs S = some x ↔ ar.IsHighest cs (ar.NonWildPointer cs) S.toList x := by
  have hl : S.toList.Pairwise (· < ·) := hS.imp Nat.compare_eq_lt.1
  refine ⟨pick_eq_none_iff, fun x => pick_eq_some_iff hl, fun _ _ => rank_pointer,
    fun _ _ => rank_function hback, ?_, fun x => ?_⟩
  · rw [highestNonWild_eq_pick, pick_eq_none_iff, List.filter_eq_nil_iff]
    exact forall₂_congr fun y _ => not_congr (nonWild_iff y)
  · rw [highestNonWild_eq_pick, pick_eq_some_iff (hl.filter _), isHighest_filter]
    exact IsHighest.congr fun y _ => nonWild_iff y

/-- Three pointers of one, one and two slots, the second with its slot solved to `arr`: the
hypotheses hold of the arena and of the set of all three. -/
theorem highest_selects_greatest_rank_of_bounded_slot :
    let ar : Arena := ⟨#[.pointer ⟨"a", "int", [0], none, false, none, false, SortedSet.empty⟩,
      .pointer ⟨"b", "int", [1], none, false, none, false, SortedSet.empty⟩,
      .pointer ⟨"c", "int", [2, 3], none, false, none, false, SortedSet.empty⟩]⟩
    let cs : ConstraintStore := { ConstraintStore.empty with env := #[.ptr, .arr, .ptr, .ptr] }
    let S : SortedSet Nat := ⟨[0, 1, 2]⟩
    (∀ id, ∀ c ∈ ar.children id, c < id) ∧ S.Ascending ∧
    (ar.highest cs S = none ↔ S.toList = []) ∧
    (∀ x, ar.highest cs S = some x ↔ ar.IsHighest cs (fun _ => True) S.toList x) ∧
    (∀ id pe, ar.pointer? id = some pe →
      ar.rank cs id = (((pe.slots.head?.map cs.assignment).getD .ptr).height, pe.slots.length)) ∧
    (∀ id fe, ar.function? id = some fe →
      ar.rank cs id = ((ar.highest cs fe.returns).map (ar.rank cs)).getD (Qualifier.ptr.height, 0)) ∧
    (ar.highestNonWild cs S = none ↔ ∀ y ∈ S.toList, ¬ ar.NonWildPointer cs y) ∧
    ∀ x, ar.highestNonWild cs S = some x ↔ ar.IsHighest cs (ar.NonWildPointer cs) S.toList x := by
  intro ar cs S
  -- no entry embeds anything
  have hback : ∀ id, ∀ c ∈ ar.children id, c < id := by
    intro id c hc
    match id with
    | 0 | 1 | 2 => simp [ar, children, get?] at hc
    | n + 3 => simp [ar, children, get?] at hc
  have hS : S.Ascending := by
    unfold SortedSet.Ascending
    decide
  exact ⟨hback, hS, highest_selects_greatest_rank hback hS⟩

end Arena

end CheckedPointers
