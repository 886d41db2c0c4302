import CheckedPointers.Fact.Cast
/-!
# Which explicit casts are safe

The structural equality of type shapes is equality (`TypeShape.beq_iff`), so the identity shortcut
taken at every level of `TypeShape.castSafeAt` is the test for equal shapes. Peeling levels in
pairs, a cast is safe exactly when both sides have as many levels, pointer and array counted
alike, and their innermost forms agree (`TypeShape.InnermostAgree`): the same base and the same
signature, or no signature on either side and bases of one scalar class
(`TypeShape.isExplicitCastSafe_iff`). The identity shortcut is then never needed: at the innermost
level it is the first way of agreeing. Agreement of innermost forms is an equivalence, and so is
safety of casts (`explicitCastSafe_iff_and_equivalence`): a cast and its reverse get the same
verdict.
-/

namespace CheckedPointers

/-! ## Structural equality of shapes is equality -/

mutual

theorem TypeShape.beq_iff : ∀ a b : TypeShape, TypeShape.beq a b = true ↔ a = b
  | ⟨b1, l1, f1⟩, ⟨b2, l2, f2⟩ => by
    simp [TypeShape.beq, FunctionShape.beqOpt_iff f1 f2, and_assoc]

theorem FunctionShape.beqOpt_iff :
    ∀ a b : Option FunctionShape, FunctionShape.beqOpt a b = true ↔ a = b
  | none, none => by simp [FunctionShape.beqOpt]
  | some a, some b => by simp [FunctionShape.beqOpt, FunctionShape.beq_iff a b]
  | none, some _ => by simp [FunctionShape.beqOpt]
  | some _, none => by simp [FunctionShape.beqOpt]

theorem FunctionShape.beq_iff : ∀ a b : FunctionShape, FunctionShape.beq a b = true ↔ a = b
  | ⟨r1, p1, h1, v1⟩, ⟨r2, p2, h2, v2⟩ => by
    simp [FunctionShape.beq, TypeShape.beq_iff r1 r2, ParamShape.beqList_iff p1 p2, and_assoc]

theorem ParamShape.beqList_iff : ∀ a b : List ParamShape, ParamShape.beqList a b = true ↔ a = b
  | [], [] => by simp [ParamShape.beqList]
  | a :: as, b :: bs => by
    simp [ParamShape.beqList, ParamShape.beq_iff a b, ParamShape.beqList_iff as bs]
  | [], _ :: _ => by simp [ParamShape.beqList]
  | _ :: _, [] => by simp [ParamShape.beqList]

theorem ParamShape.beq_iff : ∀ a b : ParamShape, ParamShape.beq a b = true ↔ a = b
  | ⟨n1, t1, k1, i1⟩, ⟨n2, t2, k2, i2⟩ => by
    simp [ParamShape.beq, TypeShape.beq_iff t1 t2, and_assoc]

end

instance : LawfulBEq TypeShape where
  eq_of_beq h := (TypeShape.beq_iff _ _).1 h
  rfl := (TypeShape.beq_iff _ _).2 rfl

namespace TypeShape

/-! ## Safety of a cast, level by level -/

/-- The innermost forms of two shapes agree: the same base and signature, or no signature on
either side and bases of the same scalar class. -/
def InnermostAgree (d s : TypeShape) : Prop :=
  (d.base = s.base ∧ d.function = s.function) ∨
    (d.function = none ∧ s.function = none ∧
      ∃ c, ScalarClass.ofBase? d.base = some c ∧ ScalarClass.ofBase? s.base = some c)

theorem InnermostAgree.refl (d : TypeShape) : InnermostAgree d d := .inl ⟨rfl, rfl⟩

theorem InnermostAgree.symm {d s : TypeShape} (h : InnermostAgree d s) : InnermostAgree s d := by
  rcases h with ⟨hb, hf⟩ | ⟨hd, hs, c, hcd, hcs⟩
  · exact .inl ⟨hb.symm, hf.symm⟩
  · exact .inr ⟨hs, hd, c, hcs, hcd⟩

theorem InnermostAgree.trans {d s t : TypeShape} (h : InnermostAgree d s) (h' : InnermostAgree s t) :
    InnermostAgree d t := by
  rcases h with ⟨hb, hf⟩ | ⟨hd, hs, c, hcd, hcs⟩
  · rcases h' with ⟨hb', hf'⟩ | ⟨hs', ht, c, hcs, hct⟩
    · exact .inl ⟨hb.trans hb', hf.trans hf'⟩
    · exact .inr ⟨hf.trans hs', ht, c, hb ▸ hcs, hct⟩
  · rcases h' with ⟨hb', hf'⟩ | ⟨-, ht, c', hcs', hct⟩
    · exact .inr ⟨hd, hf' ▸ hs, c, hcd, hb' ▸ hcs⟩
    · -- the middle base has one class, so both sides have it
      have hc : c = c' := Option.some.inj (hcs.symm.trans hcs')
      exact .inr ⟨hd, ht, c, hcd, hc ▸ hct⟩

theorem castSafeAt_nil (d s : TypeShape) (hne : ¬ (d.base = s.base ∧ d.function = s.function)) :
    castSafeAt d s [] [] = true ↔ InnermostAgree d s := by
  have hbeq : (({ d with levels := [] } : TypeShape) == { s with levels := [] }) = false := by
    simpa [beq_iff_eq, TypeShape.mk.injEq] using hne
  rw [castSafeAt, hbeq]
  simp only [Bool.false_eq_true, if_false, InnermostAgree, hne, false_or]
  by_cases hfun : d.function.isSome || s.function.isSome
  · -- a signature on either side: never safe
    rw [if_pos hfun]
    simp only [Bool.or_eq_true, Option.isSome_iff_ne_none] at hfun
    simp only [Bool.false_eq_true, false_iff, not_and]
    intro hd hs
    exact (hfun.elim (· hd) (· hs)).elim
  · rw [if_neg hfun]
    simp only [Bool.or_eq_true, Option.isSome_iff_ne_none, not_or, Decidable.not_not] at hfun
    simp only [hfun, true_and]
    cases hcd : ScalarClass.ofBase? d.base with
    | some cd =>
      cases hcs : ScalarClass.ofBase? s.base with
      | some cs =>
        simp only [beq_iff_eq, Option.some.injEq]
        exact ⟨fun h => ⟨cd, rfl, h.symm⟩, fun ⟨c, hd, hs⟩ => hd.trans hs.symm⟩
      | none =>
        -- equal bases would have equal classes
        have hb : d.base ≠ s.base := fun h => by rw [h, hcs] at hcd; cases hcd
        simp [hb]
    | none =>
      -- a base without a class must equal the other base, which the hypothesis rules out
      have hb : d.base ≠ s.base := fun h => hne ⟨h, hfun.1.trans hfun.2.symm⟩
      simp [hb]

theorem castSafeAt_iff (d s : TypeShape) :
    ∀ dl sl : List Level, castSafeAt d s dl sl = true ↔ dl.length = sl.length ∧ InnermostAgree d s
  | dl, sl => by
    by_cases heq : d.base = s.base ∧ dl = sl ∧ d.function = s.function
    · -- equal shapes: the shortcut answers, and the innermost forms are equal
      obtain ⟨hb, rfl, hf⟩ := heq
      have hbeq : (({ d with levels := dl } : TypeShape) == { s with levels := dl }) = true := by
        simp [hb, hf]
      rw [castSafeAt.eq_def, hbeq]
      simp [InnermostAgree, hb, hf]
    · have hbeq : (({ d with levels := dl } : TypeShape) == { s with levels := sl }) = false := by
        simpa [beq_iff_eq, TypeShape.mk.injEq] using heq
      match dl, sl with
      | _ :: dl, _ :: sl =>
        rw [castSafeAt.eq_def, hbeq, if_neg (by decide), castSafeAt_iff d s dl sl]
        simp
      | _ :: _, [] => rw [castSafeAt.eq_def, hbeq]; simp
      | [], _ :: _ => rw [castSafeAt.eq_def, hbeq]; simp
      | [], [] =>
        have hne : ¬ (d.base = s.base ∧ d.function = s.function) := fun h => heq ⟨h.1, rfl, h.2⟩
        rw [castSafeAt_nil d s hne]
        simp

theorem isExplicitCastSafe_iff (d s : TypeShape) :
    isExplicitCastSafe d s = true ↔ d.levels.length = s.levels.length ∧ InnermostAgree d s :=
  castSafeAt_iff d s d.levels s.levels

example : isExplicitCastSafe (pointer "long" 1) (pointer "unsigned int" 1) = true := by decide +kernel

example : isExplicitCastSafe (pointer "int" 1) (pointer "char" 1) = false := by decide +kernel

/-- A cast is safe exactly when both sides have as many levels and their innermost forms agree;
so safety of casts is reflexive, symmetric and transitive. -/
theorem explicitCastSafe_iff_and_equivalence :
    (∀ d s : TypeShape, isExplicitCastSafe d s = true ↔
      d.levels.length = s.levels.length ∧
        ((d.base = s.base ∧ d.function = s.function) ∨
          (d.function = none ∧ s.function = none ∧
            ∃ c, ScalarClass.ofBase? d.base = some c ∧ ScalarClass.ofBase? s.base = some c))) ∧
      Equivalence fun d s : TypeShape => isExplicitCastSafe d s = true := by
  refine ⟨isExplicitCastSafe_iff, ?_⟩
  constructor
  · intro d
    exact (isExplicitCastSafe_iff d d).2 ⟨rfl, InnermostAgree.refl d⟩
  · intro d s h
    obtain ⟨hl, hi⟩ := (isExplicitCastSafe_iff d s).1 h
    exact (isExplicitCastSafe_iff s d).2 ⟨hl.symm, hi.symm⟩
  · intro d s t h h'
    obtain ⟨hl, hi⟩ := (isExplicitCastSafe_iff d s).1 h
    obtain ⟨hl', hi'⟩ := (isExplicitCastSafe_iff s t).1 h'
    exact (isExplicitCastSafe_iff d t).2 ⟨hl.trans hl', hi.trans hi'⟩

end TypeShape

end CheckedPointers
