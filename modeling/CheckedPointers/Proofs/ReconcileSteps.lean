import CheckedPointers.Proofs.ProgramSteps

/-!
# Reconciliation rounds

A round of reconciliation walks the definitions and, for each whose declaration differs, widens
returns and parameters by adding constraints over the two entries' slots. So a round keeps the
program's invariants like every other operation (`keeps_reconcile`); from a well-formed program
it never fails and leaves the function table alone (`Program.Succeeds`); and a round that reports
no new constraint leaves the store with as many constraints as before (`reconcile_run`), so a
store closed before the round is closed after it.
-/

namespace CheckedPointers

open ConstraintStore

namespace Program

variable {p p' : Program}

/-! ## Reconciling -/

section Reconcile

variable {ar : Arena} {n : Nat}

theorem aligned_slots (hs : ar.SlotsBelow n) {a b : Nat} {t s : List Nat} (h : aligned ar a b = some (t, s)) :
    (∀ v ∈ t, v < n) ∧ (∀ v ∈ s, v < n) := by
  simp only [aligned, Option.bind_eq_bind, Option.bind_eq_some_iff, Option.pure_def,
    Option.some.injEq, Prod.mk.injEq] at h
  obtain ⟨pa, hpa, pb, hpb, rfl, rfl⟩ := h
  exact ⟨fun v hv => hs a pa hpa v (List.mem_of_mem_drop hv),
    fun v hv => hs b pb hpb v (List.mem_of_mem_drop hv)⟩

theorem growsFrom_widenReturn (hs : ar.SlotsBelow n) (dr src : Nat) :
    GrowsFrom n fun cs => widenReturn ar cs dr src := by
  intro cs hcs
  show cs.Grows (widenReturn ar cs dr src)
  unfold widenReturn
  split
  · exact Grows.refl cs
  · next t s hal =>
    obtain ⟨ht, hs'⟩ := aligned_slots hs hal
    refine GrowsFrom.foldl (fun x hx => ?_) cs hcs
    obtain ⟨⟨tv, sv⟩, i⟩ := x
    have hx' := List.of_mem_zip (List.fst_mem_of_mem_zipIdx hx)
    intro c hc
    dsimp only
    split
    · exact GrowsFrom.addGeq (ht tv hx'.1) (fun h => absurd h (by decide)) c hc
    · split
      · exact GrowsFrom.addGeq (hs' sv hx'.2) (fun h => absurd h (by decide)) c hc
      · exact Grows.refl c

theorem growsFrom_widenArgument (hs : ar.SlotsBelow n) (arg dp : Nat) :
    GrowsFrom n fun cs => widenArgument ar cs arg dp := by
  intro cs hcs
  show cs.Grows (widenArgument ar cs arg dp)
  unfold widenArgument
  split
  · exact Grows.refl cs
  · next a d hal =>
    obtain ⟨ha, -⟩ := aligned_slots hs hal
    refine GrowsFrom.foldl (fun x hx => ?_) cs hcs
    obtain ⟨av, dv⟩ := x
    intro c hc
    dsimp only
    split
    · exact GrowsFrom.addGeq (ha av (List.of_mem_zip hx).1) (fun h => absurd h (by decide)) c hc
    · exact Grows.refl c

theorem growsFrom_reconcileReturns (hs : ar.SlotsBelow n) (df cf : FunctionEntry) :
    GrowsFrom n fun cs => reconcileReturns ar cs df cf := by
  intro cs hcs
  show cs.Grows (reconcileReturns ar cs df cf)
  have hw : Reason.wildBodyReturn ≠ Reason.arrayDecl := by decide
  unfold reconcileReturns
  split
  · split
    · dsimp only
      split
      · exact ((Arena.growsFrom_constrainSetToWild hs hw _).comp
          (Arena.growsFrom_constrainSetToWild hs hw _)) cs hcs
      · split
        · split
          · split
            · exact growsFrom_widenReturn hs _ _ cs hcs
            · exact Grows.refl cs
          · exact Grows.refl cs
        · exact Grows.refl cs
    · exact Grows.refl cs
  · exact Grows.refl cs

theorem growsFrom_reconcileParam (hs : ar.SlotsBelow n) (dps cps : SortedSet Nat) :
    GrowsFrom n fun cs => reconcileParam ar cs dps cps := by
  intro cs hcs
  show cs.Grows (reconcileParam ar cs dps cps)
  unfold reconcileParam
  split
  · split
    · exact Grows.refl cs
    · split
      · exact Grows.refl cs
      · split
        · exact Grows.refl cs
        · -- each checked argument in turn
          refine GrowsFrom.foldl (fun arg _ => ?_) cs hcs
          intro c hc
          dsimp only
          split
          · exact growsFrom_widenArgument hs _ _ c hc
          · exact Grows.refl c
  · exact Grows.refl cs

theorem growsFrom_reconcilePair (hs : ar.SlotsBelow n) (d c : Nat) :
    GrowsFrom n fun cs => reconcilePair ar cs d c := by
  intro cs hcs
  show cs.Grows (reconcilePair ar cs d c)
  unfold reconcilePair
  split
  · next df cf _ _ =>
    -- the returns first, then the parameters position by position from there
    have hret := growsFrom_reconcileReturns hs df cf cs hcs
    have hn : n ≤ (reconcileReturns ar cs df cf).numVars := Nat.le_trans hcs hret.extends.numVars_le
    refine hret.trans ?_
    split
    · exact Grows.refl _
    · exact GrowsFrom.foldl (fun x _ => growsFrom_reconcileParam hs x.1 x.2) _ hn
  · exact Grows.refl cs

end Reconcile

theorem keeps_reconcile : Keeps reconcile := by
  unfold reconcile
  refine keeps_get.bind fun _ => keeps_get.bind fun _ => (keeps_forIn fun f _ => ?_).bind fun _ =>
    keeps_get.bind fun _ => keeps_pure _
  refine (keeps_declarationOf f.key).bind fun _ => keeps_ite ?_ (keeps_pure _)
  exact (keeps_modify (preserves_store fun _ hw =>
    growsFrom_reconcilePair hw.slots _ _ _ (Nat.le_refl _))).bind fun _ => keeps_pure _


/-! ## Rounds that cannot fail -/

/-- From every well-formed program with function table `F` the operation succeeds, leaving a
well-formed program with the same table. -/
def Succeeds {α : Type} (F : SortedMap DeclKey FunctionDecl) (m : ProgramM α) : Prop :=
  ∀ p : Program, p.Wf → p.functions = F → ∃ a p', m.run p = .ok a p' ∧ p'.Wf ∧ p'.functions = F

section Succeeds

variable {α β : Type} {F : SortedMap DeclKey FunctionDecl}

theorem Keeps.succeeds {m : ProgramM α} (hk : Keeps m)
    (h : ∀ p, p.Wf → p.functions = F → ∃ a p', m.run p = .ok a p' ∧ p'.functions = F) :
    Succeeds F m := by
  intro p hw hF
  obtain ⟨a, p', hr, hF'⟩ := h p hw hF
  have hw' := (hk p hw).1
  rw [hr] at hw'
  exact ⟨a, p', hr, hw', hF'⟩

theorem succeeds_pure (a : α) : Succeeds F (pure a : ProgramM α) := fun p hw hF => ⟨a, p, rfl, hw, hF⟩

theorem succeeds_modify {f : Program → Program} (hp : Preserves f)
    (hf : ∀ p, (f p).functions = p.functions) : Succeeds F (modify f : ProgramM Unit) :=
  fun p hw hF => ⟨(), f p, rfl, (hp p hw).1, (hf p).trans hF⟩

theorem Succeeds.bind {x : ProgramM α} {f : α → ProgramM β} (hx : Succeeds F x)
    (hf : ∀ a, Succeeds F (f a)) : Succeeds F (x >>= f) := by
  intro p hw hF
  obtain ⟨a, p', hr, hw', hF'⟩ := hx p hw hF
  obtain ⟨b, p'', hr', hw'', hF''⟩ := hf a p' hw' hF'
  exact ⟨b, p'', by rw [run_bind, hr]; exact hr', hw'', hF''⟩

theorem succeeds_forIn {l : List α} {init : β} {f : α → β → ProgramM (ForInStep β)}
    (hf : ∀ a ∈ l, ∀ b, Succeeds F (f a b)) : Succeeds F (forIn l init f) := by
  induction l generalizing init with
  | nil => exact succeeds_pure init
  | cons x xs ih =>
    rw [List.forIn_cons]
    refine (hf x List.mem_cons_self init).bind fun r => ?_
    cases r with
    | done b => exact succeeds_pure b
    | yield b => exact ih fun a ha => hf a (List.mem_cons_of_mem x ha)

theorem succeeds_ite {c : Prop} [Decidable c] {x y : ProgramM α} (hx : Succeeds F x)
    (hy : Succeeds F y) : Succeeds F (if c then x else y) := by
  split
  · exact hx
  · exact hy

theorem succeeds_get_bind {f : Program → ProgramM β}
    (hf : ∀ p, p.Wf → p.functions = F → ∃ a p', (f p).run p = .ok a p' ∧ p'.Wf ∧ p'.functions = F) :
    Succeeds F (get >>= f) := by
  intro p hw hF
  rw [run_bind, run_get]
  exact hf p hw hF

theorem succeeds_synthesize {key : DeclKey} {d : FunctionDecl} (hd : (key, d) ∈ F.toList) :
    Succeeds F (synthesize key) := by
  refine (keeps_synthesize key).succeeds fun p _ hF => ?_
  unfold synthesize
  simp only [run_bind, run_get]
  split
  · exact ⟨_, p, rfl, hF⟩
  · split
    · next hnone =>
      have h := SortedMap.find?_isSome_of_mem (hF ▸ hd) (DeclKey.compare_self key)
      simp [hnone] at h
    · refine ⟨_, _, rfl, ?_⟩
      split <;> exact hF

theorem succeeds_declarationOf {key : DeclKey} {d : FunctionDecl} (hd : (key, d) ∈ F.toList) :
    Succeeds F (declarationOf key) := by
  refine (keeps_declarationOf key).succeeds fun p hw hF => ?_
  unfold declarationOf outOfContextFunction
  simp only [run_bind, run_get]
  split
  · next hnone =>
    have h := SortedMap.find?_isSome_of_mem (hF ▸ hd) (DeclKey.compare_self key)
    simp [hnone] at h
  · split
    · exact ⟨_, p, rfl, hF⟩
    · split
      · exact ⟨_, p, rfl, hF⟩
      · obtain ⟨a, p', hr, -, hF'⟩ := succeeds_synthesize hd p hw hF
        exact ⟨a, p', hr, hF'⟩

theorem succeeds_reconcile (F : SortedMap DeclKey FunctionDecl) : Succeeds F reconcile := by
  unfold reconcile
  refine succeeds_get_bind fun p0 hw0 hF0 => ?_
  refine succeeds_get_bind (fun p hw hF => ?_) p0 hw0 hF0
  dsimp only
  refine ((succeeds_forIn fun f hf _ => ?_).bind
    fun _ => succeeds_get_bind fun p' hw' hF' => ⟨_, p', rfl, hw', hF'⟩) p hw hF
  -- the definition is in the table under its own key
  obtain ⟨k, hk⟩ := SortedMap.mem_values.1 (List.mem_filter.1 hf).1
  have hkey : (f.key, f) ∈ F.toList := by
    rw [(hw.functions _ hk).1, ← hF]
    exact hk
  refine (succeeds_declarationOf hkey).bind fun _ => succeeds_ite ?_ (succeeds_pure _)
  exact (succeeds_modify (preserves_store fun _ hw =>
    growsFrom_reconcilePair hw.slots _ _ _ (Nat.le_refl _)) fun _ => rfl).bind fun _ => succeeds_pure _

end Succeeds

theorem size_of_reconcile_false (h : reconcile.run p = .ok false p') : p'.store.size = p.store.size := by
  unfold reconcile at h
  simp only [run_bind, run_get] at h
  split at h
  · simp only [run_pure, EStateM.Result.ok.injEq, bne_eq_false_iff_eq] at h
    obtain ⟨hsize, rfl⟩ := h
    exact hsize
  · cases h

/-- A round from a well-formed program: it succeeds, keeps the invariants, only grows arena and
store, and when it reports nothing new the store has no more constraints than before. -/
theorem reconcile_run (hw : p.Wf) :
    ∃ b p', reconcile.run p = .ok b p' ∧ p'.Wf ∧ p.Evolves p' ∧
      (b = false → p'.store.size = p.store.size) := by
  obtain ⟨b, p', hr, hw', -⟩ := succeeds_reconcile p.functions p hw rfl
  have he := (keeps_reconcile p hw).2
  rw [hr] at he
  exact ⟨b, p', hr, hw', he, fun hb => size_of_reconcile_false (hb ▸ hr)⟩

end Program

end CheckedPointers
