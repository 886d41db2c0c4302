import CheckedPointers.Proofs.Linking

/-!
# Reconciliation at its fixpoint

A solve alternates rounds of reconciliation with solves of the store and stops early when a round
adds no constraint. Such a round is a fixpoint of every step it takes. Each step leaves the store
as it is or adds constraints (`ConstraintStore.AddsOnly`), so when the round ends with as many
constraints as it began with, every step left the store where it found it, and every constraint a
step would have added is there already. In a closed store those constraints hold.

So a definition and its declaration that such a step compared are reconciled
(`Program.Reconciled`): a `wild` body return makes every return alternative of both sides `wild`
throughout, and at a position where the body's parameter is checked and the declaration's is
`wild`, each checked call-site argument of the declaration is at least the body's parameter, slot
by slot from the innermost (`Program.reconciled_of_fixed`).
-/

namespace CheckedPointers

open ConstraintStore

section Lists

variable {α β : Type} {xs : List α} {ys : List β}

theorem zip_reverse_of_length_eq (h : xs.length = ys.length) :
    xs.reverse.zip ys.reverse = (xs.zip ys).reverse := by
  induction xs generalizing ys with
  | nil => simp
  | cons x xs ih =>
    cases ys with
    | nil => simp at h
    | cons y ys =>
      have h' : xs.length = ys.length := by simpa using h
      rw [List.reverse_cons, List.reverse_cons, List.zip_append (by simpa using h'), ih h']
      simp

theorem mem_zip_drop_of_mem_zip_reverse {y : α × β} (h : y ∈ xs.reverse.zip ys.reverse) :
    y ∈ (xs.drop (xs.length - min xs.length ys.length)).zip
      (ys.drop (ys.length - min xs.length ys.length)) := by
  rw [List.zip_eq_zip_take_min, List.length_reverse, List.length_reverse, List.take_reverse,
    List.take_reverse, zip_reverse_of_length_eq (by simp; omega)] at h
  exact List.mem_reverse.1 h

end Lists

namespace ConstraintStore

variable {f g : ConstraintStore → ConstraintStore} {cs : ConstraintStore}

/-- A change of store that leaves a store as it is or adds constraints to it. -/
def AddsOnly (f : ConstraintStore → ConstraintStore) : Prop :=
  ∀ cs, f cs = cs ∨ cs.size < (f cs).size

theorem AddsOnly.size_le (hf : AddsOnly f) (cs : ConstraintStore) : cs.size ≤ (f cs).size := by
  rcases hf cs with h | h
  · rw [h]
  · exact Nat.le_of_lt h

theorem AddsOnly.eq_of_size_le (hf : AddsOnly f) (h : (f cs).size ≤ cs.size) : f cs = cs :=
  (hf cs).resolve_right (Nat.not_lt.2 h)

theorem addsOnly_id : AddsOnly fun cs => cs := fun _ => .inl rfl

theorem AddsOnly.comp (hf : AddsOnly f) (hg : AddsOnly g) : AddsOnly fun cs => g (f cs) := by
  intro cs
  dsimp only
  rcases hf cs with h | h
  · rw [h]
    exact hg cs
  · exact .inr (Nat.lt_of_lt_of_le h (hg.size_le _))

theorem AddsOnly.fixed_comp (hf : AddsOnly f) (hg : AddsOnly g) (h : (g (f cs)).size ≤ cs.size) :
    f cs = cs ∧ g cs = cs := by
  have h1 : f cs = cs := hf.eq_of_size_le (Nat.le_trans (hg.size_le _) h)
  rw [h1] at h
  exact ⟨h1, hg.eq_of_size_le h⟩

theorem addsOnly_ite {c : ConstraintStore → Prop} [DecidablePred c] (hf : AddsOnly f) :
    AddsOnly fun cs => if c cs then f cs else cs := by
  intro cs
  dsimp only
  split
  · exact hf cs
  · exact .inl rfl

theorem addsOnly_add (r : Relation) (reason : String) (loc : Option SourceLoc) :
    AddsOnly fun cs => (cs.add r reason loc).2 := by
  intro cs
  dsimp only
  rcases add_cases cs r reason loc with h | ⟨_, h⟩
  · exact .inl h
  · right
    rw [h]
    simp [size]

theorem addsOnly_addGeq (v : Nat) (q : Qualifier) (reason : String) (loc : Option SourceLoc) :
    AddsOnly fun cs => (cs.addGeq v q reason loc).2 :=
  addsOnly_add (.geq v q) reason loc

theorem addsOnly_foldl {β : Type} {l : List β} {f : ConstraintStore → β → ConstraintStore}
    (hf : ∀ x ∈ l, AddsOnly fun cs => f cs x) : AddsOnly fun cs => l.foldl f cs := by
  induction l with
  | nil => exact addsOnly_id
  | cons x xs ih => exact (hf x List.mem_cons_self).comp (ih fun y hy => hf y (List.mem_cons_of_mem x hy))

theorem fixed_foldl {β : Type} {l : List β} {f : ConstraintStore → β → ConstraintStore}
    (hf : ∀ x ∈ l, AddsOnly fun cs => f cs x) (h : (l.foldl f cs).size ≤ cs.size) :
    ∀ x ∈ l, f cs x = cs := by
  induction l with
  | nil => exact fun _ h => nomatch h
  | cons x xs ih =>
    have hxs : ∀ y ∈ xs, AddsOnly fun cs => f cs y := fun y hy => hf y (List.mem_cons_of_mem x hy)
    obtain ⟨hx, hrest⟩ := (hf x List.mem_cons_self).fixed_comp (addsOnly_foldl hxs) h
    intro y hy
    rcases List.mem_cons.1 hy with rfl | hy
    · exact hx
    · exact ih hxs (Nat.le_of_eq (congrArg size hrest)) y hy

theorem asks_of_add_eq {r : Relation} (hr : ∀ a b, r ≠ .eq (.const a) (.const b)) {reason : String}
    {loc : Option SourceLoc} (h : (cs.add r reason loc).2 = cs) : cs.Asks r := by
  have ha : (cs.add r reason loc).2.Asks r := asks_add hr reason loc
  rwa [h] at ha

theorem asks_of_addGeq_eq {v : Nat} {q : Qualifier} {reason : String} {loc : Option SourceLoc}
    (h : (cs.addGeq v q reason loc).2 = cs) : cs.Asks (.geq v q) :=
  asks_of_add_eq (fun _ _ h => by cases h) h

end ConstraintStore

namespace Arena

variable (ar : Arena) {cs : ConstraintStore} {id : Nat} {q : Qualifier}

theorem addsOnly_constrainToWild (id : Nat) (reason : String) (loc : Option SourceLoc) :
    AddsOnly fun cs => ar.constrainToWild cs id reason loc :=
  addsOnly_foldl fun v _ => addsOnly_addGeq v .wild reason loc

theorem addsOnly_constrainSetToWild (s : SortedSet Nat) (reason : String) (loc : Option SourceLoc) :
    AddsOnly fun cs => ar.constrainSetToWild cs s reason loc :=
  addsOnly_foldl fun c _ => addsOnly_constrainToWild ar c reason loc

variable {ar}

theorem wild_of_constrainToWild_eq (hc : cs.Closed cs.env) {reason : String} {loc : Option SourceLoc}
    (h : ar.constrainToWild cs id reason loc = cs) :
    ∀ v ∈ (ar.varsOf id).toList, cs.assignment v = .wild := by
  intro v hv
  have ha := (asks_constrainToWild ar cs id reason loc).2 v hv
  rw [h] at ha
  exact Qualifier.eq_wild_of_wild_le (hc.holds ha)

theorem isValid_of_outermost? (h : ar.outermost? cs id = some q) : ar.isValid id = true := by
  unfold outermost? at h
  unfold isValid
  split at h
  · next pe hpe =>
    rw [pointer?_eq_some.1 hpe]
    cases hs : pe.slots with
    | nil => simp [hs] at h
    | cons v rest => simp [hs]
  · cases h

end Arena

namespace Program

variable {ar : Arena} {cs : ConstraintStore}

theorem addsOnly_widenReturn (ar : Arena) (dr src : Nat) : AddsOnly fun cs => widenReturn ar cs dr src := by
  intro cs
  unfold widenReturn
  split
  · exact .inl rfl
  · refine addsOnly_foldl (fun x _ => ?_) cs
    obtain ⟨⟨tv, sv⟩, i⟩ := x
    intro acc
    dsimp only
    split
    · exact addsOnly_addGeq _ _ _ _ acc
    · split
      · exact addsOnly_addGeq _ _ _ _ acc
      · exact .inl rfl

theorem addsOnly_widenArgument (ar : Arena) (arg dp : Nat) :
    AddsOnly fun cs => widenArgument ar cs arg dp := by
  intro cs
  unfold widenArgument
  split
  · exact .inl rfl
  · refine addsOnly_foldl (fun x _ => ?_) cs
    obtain ⟨av, dv⟩ := x
    exact addsOnly_ite (addsOnly_addGeq _ _ _ _)

theorem addsOnly_reconcileReturns (ar : Arena) (df cf : FunctionEntry) :
    AddsOnly fun cs => reconcileReturns ar cs df cf := by
  intro cs
  dsimp only
  unfold reconcileReturns
  split
  · split
    · dsimp only
      split
      · exact ((Arena.addsOnly_constrainSetToWild ar _ _ _).comp
          (Arena.addsOnly_constrainSetToWild ar _ _ _)) cs
      · split
        · split
          · split
            · exact addsOnly_widenReturn ar _ _ cs
            · exact .inl rfl
          · exact .inl rfl
        · exact .inl rfl
    · exact .inl rfl
  · exact .inl rfl

theorem addsOnly_reconcileParam (ar : Arena) (dps cps : SortedSet Nat) :
    AddsOnly fun cs => reconcileParam ar cs dps cps := by
  intro cs
  dsimp only
  unfold reconcileParam
  split
  · split
    · exact .inl rfl
    · split
      · exact .inl rfl
      · split
        · exact .inl rfl
        · exact addsOnly_foldl (fun arg _ => addsOnly_ite (addsOnly_widenArgument ar arg _)) cs
  · exact .inl rfl

/-! ## Steps that add nothing -/

theorem aligned_of_pointer? {a b : Nat} {pa pb : PointerEntry} (ha : ar.pointer? a = some pa)
    (hb : ar.pointer? b = some pb) :
    aligned ar a b = some (pa.slots.drop (pa.slots.length - min pa.slots.length pb.slots.length),
      pb.slots.drop (pb.slots.length - min pa.slots.length pb.slots.length)) := by
  simp [aligned, ha, hb]

theorem le_of_widenArgument_eq (hc : cs.Closed cs.env) {arg dp : Nat} (h : widenArgument ar cs arg dp = cs)
    {t s : List Nat} (hal : aligned ar arg dp = some (t, s)) :
    ∀ y ∈ t.zip s, cs.assignment y.2 ≤ cs.assignment y.1 := by
  unfold widenArgument at h
  rw [hal] at h
  dsimp only at h
  have hfix := fixed_foldl (fun x _ => by
      obtain ⟨av, dv⟩ := x
      exact addsOnly_ite (addsOnly_addGeq _ _ _ _)) (Nat.le_of_eq (congrArg size h))
  rintro ⟨av, dv⟩ hy
  have hy' := hfix (av, dv) hy
  dsimp only at hy'
  split at hy'
  · exact hc.holds (asks_of_addGeq_eq hy')
  · exact Nat.le_of_not_lt ‹_›

theorem returns_wild_of_fixed (hc : cs.Closed cs.env) {df cf : FunctionEntry}
    (h : reconcileReturns ar cs df cf = cs) {dr cr : Nat} (hdr : ar.highest cs df.returns = some dr)
    (hcr : ar.highest cs cf.returns = some cr) (hvalid : ar.isValid cr = true)
    (hwild : ar.outermost? cs dr = some .wild) :
    ∀ x ∈ df.returns.toList ++ cf.returns.toList, ∀ v ∈ (ar.varsOf x).toList, cs.assignment v = .wild := by
  unfold reconcileReturns at h
  have hwild' : isWildOpt (some Qualifier.wild) = true := rfl
  simp only [hdr, hcr, Arena.isValid_of_outermost? hwild, hvalid, hwild, Bool.and_self, hwild',
    if_true] at h
  -- both sides' returns were forced to `wild`, one set after the other
  obtain ⟨hd, hc'⟩ := (Arena.addsOnly_constrainSetToWild ar df.returns _ _).fixed_comp
    (Arena.addsOnly_constrainSetToWild ar cf.returns _ _) (Nat.le_of_eq (congrArg size h))
  intro x hx
  rcases List.mem_append.1 hx with hx | hx
  · exact Arena.wild_of_constrainToWild_eq hc
      (fixed_foldl (fun c _ => Arena.addsOnly_constrainToWild ar c _ _) (Nat.le_of_eq (congrArg size hd)) x hx)
  · exact Arena.wild_of_constrainToWild_eq hc
      (fixed_foldl (fun c _ => Arena.addsOnly_constrainToWild ar c _ _) (Nat.le_of_eq (congrArg size hc')) x hx)

theorem args_le_of_fixed (hc : cs.Closed cs.env) {dps cps : SortedSet Nat}
    (h : reconcileParam ar cs dps cps = cs) {dp cp : Nat} {qd : Qualifier} {pc : PointerEntry}
    (hdp : ar.highest cs dps = some dp) (hcp : ar.highest cs cps = some cp)
    (hqd : ar.outermost? cs dp = some qd) (hchecked : qd ≠ .wild) (hqc : ar.outermost? cs cp = some .wild)
    (hpc : ar.pointer? cp = some pc) :
    ∀ arg ∈ pc.arguments.toList, ∀ qa, ar.outermost? cs arg = some qa → qa ≠ .wild →
      ∀ t s, aligned ar arg dp = some (t, s) → ∀ y ∈ t.zip s, cs.assignment y.2 ≤ cs.assignment y.1 := by
  have hd : qd.isWild = false := Bool.eq_false_iff.2 fun hw => hchecked (Qualifier.isWild_iff.1 hw)
  have hwild' : isWildOpt (some Qualifier.wild) = true := rfl
  unfold reconcileParam at h
  simp only [hdp, hcp, Arena.isValid_of_outermost? hqd, Arena.isValid_of_outermost? hqc, hqd, hqc, hpc,
    Option.all_some, hd, hwild', Bool.not_true, Bool.or_self, Bool.false_eq_true, if_false] at h
  -- what is left is the walk over the declaration's call-site arguments
  have hfix := fixed_foldl (fun arg _ => addsOnly_ite (addsOnly_widenArgument ar arg dp))
    (Nat.le_of_eq (congrArg size h))
  intro arg harg qa hqa hchecked' t s hal
  have ha : qa.isWild = false := Bool.eq_false_iff.2 fun hw => hchecked' (Qualifier.isWild_iff.1 hw)
  have h' := hfix arg harg
  rw [if_pos (by simp [Arena.isValid_of_outermost? hqa, hqa, ha])] at h'
  exact le_of_widenArgument_eq hc h' hal

theorem reconcilePair_fixed {d c : Nat} (h : (reconcilePair ar cs d c).size ≤ cs.size) {df cf : FunctionEntry}
    (hd : ar.function? d = some df) (hc : ar.function? c = some cf) :
    reconcileReturns ar cs df cf = cs ∧
      (df.params.length = cf.params.length →
        ∀ x ∈ df.params.zip cf.params, reconcileParam ar cs x.1 x.2 = cs) := by
  unfold reconcilePair at h
  simp only [hd, hc] at h
  have hparams := addsOnly_foldl (l := df.params.zip cf.params) fun x _ => addsOnly_reconcileParam ar x.1 x.2
  have hret : reconcileReturns ar cs df cf = cs := by
    refine (addsOnly_reconcileReturns ar df cf).eq_of_size_le (Nat.le_trans ?_ h)
    split
    · exact Nat.le_refl _
    · exact hparams.size_le _
  refine ⟨hret, fun hlen => ?_⟩
  rw [hret, if_neg (by simpa using hlen)] at h
  exact fixed_foldl (fun x _ => addsOnly_reconcileParam ar x.1 x.2) h

/-! ## Reconciled definitions -/

/-- A definition entry `d` and its declaration entry `c` are reconciled, read in arena `ar` against
store `cs`. When the highest alternative of the body's return is `wild` and the declaration's is
valid, every slot of every return alternative of both is `wild`. When both have as many parameters,
at each position where the highest alternative of the body's parameter is a checked pointer and the
declaration's is a `wild` one, every checked pointer recorded as a call-site argument of the
declaration's is, slot by slot from the innermost, at least the body's parameter. -/
structure Reconciled (ar : Arena) (cs : ConstraintStore) (d c : Nat) : Prop where
  returns : ∀ df cf dr cr, ar.function? d = some df → ar.function? c = some cf →
    ar.highest cs df.returns = some dr → ar.highest cs cf.returns = some cr → ar.isValid cr = true →
    ar.outermost? cs dr = some .wild →
    ∀ x ∈ df.returns.toList ++ cf.returns.toList, ∀ q ∈ ar.solvedChain cs x, q = .wild
  params : ∀ df cf, ar.function? d = some df → ar.function? c = some cf →
    df.params.length = cf.params.length →
    ∀ x ∈ df.params.zip cf.params, ∀ dp cp qd pc, ar.highest cs x.1 = some dp →
      ar.highest cs x.2 = some cp → ar.outermost? cs dp = some qd → qd ≠ .wild →
      ar.outermost? cs cp = some .wild → ar.pointer? cp = some pc →
      ∀ arg ∈ pc.arguments.toList, ∀ qa pa pd, ar.outermost? cs arg = some qa → qa ≠ .wild →
        ar.pointer? arg = some pa → ar.pointer? dp = some pd →
        ∀ y ∈ pa.slots.reverse.zip pd.slots.reverse, cs.assignment y.2 ≤ cs.assignment y.1

/-- In a closed store, a definition and its declaration whose reconciliation adds nothing are
reconciled. -/
theorem reconciled_of_fixed {d c : Nat} (hc : cs.Closed cs.env) (h : (reconcilePair ar cs d c).size ≤ cs.size) :
    Reconciled ar cs d c := by
  constructor
  · intro df cf dr cr hd hc' hdr hcr hvalid hwild x hx q hq
    have hwild := returns_wild_of_fixed hc (reconcilePair_fixed h hd hc').1 hdr hcr hvalid hwild x hx
    unfold Arena.solvedChain at hq
    split at hq
    · next pe hpe =>
      obtain ⟨v, hv, rfl⟩ := List.mem_map.1 hq
      exact hwild v (Arena.mem_varsOf_of_pointer (Arena.pointer?_eq_some.2 hpe) hv)
    · cases hq
  · intro df cf hd hc' hlen x hx dp cp qd pc hdp hcp hqd hchecked hqc hpc arg harg qa pa pd hqa hchecked'
      hpa hpd y hy
    exact args_le_of_fixed hc ((reconcilePair_fixed h hd hc').2 hlen x hx) hdp hcp hqd hchecked hqc hpc
      arg harg qa hqa hchecked' _ _ (aligned_of_pointer? hpa hpd) y (mem_zip_drop_of_mem_zip_reverse hy)

end Program

end CheckedPointers
