import CheckedPointers.Proofs.Refs
import CheckedPointers.Proofs.ReconcileFixpoint

/-!
# Definitions are reconciled when a solve stops early

A solve alternates rounds of reconciliation with solves of the store, at most as many rounds as
the options allow. When it stops before that, the last round added no constraint, and every
definition is reconciled with its declaration in the session the solve leaves
(`Session.definitions_reconciled_of_early_stop`).

The round compared each pair in the program of its own turn, and from then on the round only made
up declarations and added constraints it did not need: the arena grew by appending, and every
slot kept its qualifier. What reconciliation reads of an entry (its solved chain, its outermost
qualifier, the highest of its alternatives) depends only on the entries it refers to, which were
there already (`Arena.Agrees`), so the pair reads the same at the end (`Program.Reconciled.transfer`).
The declaration side of a definition is the one the round found, made up once and then found
again (`Program.declarationOf_stable`).
-/

namespace CheckedPointers

open ConstraintStore

namespace Arena

/-! ## Reading a grown arena -/

/-- The arena `ar'` holds the entries of `ar` and more, and the store `cs'` gives every slot the
qualifier `cs` gives it. -/
structure Agrees (ar : Arena) (cs : ConstraintStore) (ar' : Arena) (cs' : ConstraintStore) : Prop where
  appends : ar.Appends ar'
  assignment : cs'.assignment = cs.assignment

variable {ar ar' : Arena} {cs cs' : ConstraintStore} {id : Nat}

theorem Agrees.get? (h : Agrees ar cs ar' cs') (hid : id < ar.size) : ar'.get? id = ar.get? id :=
  h.appends.get?_eq hid

theorem Agrees.pointer? (h : Agrees ar cs ar' cs') (hid : id < ar.size) :
    ar'.pointer? id = ar.pointer? id := by
  unfold Arena.pointer?
  rw [h.get? hid]

theorem Agrees.function? (h : Agrees ar cs ar' cs') (hid : id < ar.size) :
    ar'.function? id = ar.function? id := by
  unfold Arena.function?
  rw [h.get? hid]

theorem Agrees.solvedChain (h : Agrees ar cs ar' cs') (hid : id < ar.size) :
    ar'.solvedChain cs' id = ar.solvedChain cs id := by
  unfold Arena.solvedChain
  rw [h.get? hid, h.assignment]

theorem Agrees.outermost? (h : Agrees ar cs ar' cs') (hid : id < ar.size) :
    ar'.outermost? cs' id = ar.outermost? cs id := by
  unfold Arena.outermost?
  rw [h.pointer? hid, h.assignment]

theorem Agrees.isValid (h : Agrees ar cs ar' cs') (hid : id < ar.size) : ar'.isValid id = ar.isValid id := by
  unfold Arena.isValid
  rw [h.get? hid]

theorem Agrees.rank (h : Agrees ar cs ar' cs') : ∀ id, id < ar.size → ar'.rank cs' id = ar.rank cs id := by
  intro id
  induction id using Nat.strong_induction_on with
  | _ id ih =>
    intro hid
    rw [Arena.rank.eq_def ar', Arena.rank.eq_def ar, h.get? hid, h.assignment]
    split
    · rfl
    · congr 1
      funext best c
      split
      · next hc => rw [ih c.1 hc (Nat.lt_trans hc hid)]
      · rfl
    · rfl

theorem Agrees.pick (h : Agrees ar cs ar' cs') {l : List Nat} (hl : ∀ c ∈ l, c < ar.size) :
    ar'.pick cs' l = ar.pick cs l := by
  unfold Arena.pick
  -- the best so far is one of the candidates, so it is in the arena too
  generalize hbest : (none : Option Nat) = best
  have hb : ∀ b ∈ best, b < ar.size := by
    subst hbest
    exact fun _ h => nomatch h
  clear hbest
  induction l generalizing best with
  | nil => rfl
  | cons c l ih =>
    have hc := hl c List.mem_cons_self
    have hl' : ∀ c ∈ l, c < ar.size := fun x hx => hl x (List.mem_cons_of_mem c hx)
    rw [List.foldl_cons, List.foldl_cons]
    cases best with
    | none => exact ih hl' _ fun b hb' => by cases hb'; exact hc
    | some b =>
      dsimp only
      rw [h.rank b (hb b rfl), h.rank c hc]
      split
      · exact ih hl' _ fun b' hb' => by cases hb'; exact hc
      · exact ih hl' _ hb

theorem Agrees.highest (h : Agrees ar cs ar' cs') {s : SortedSet Nat} (hs : ∀ c ∈ s.toList, c < ar.size) :
    ar'.highest cs' s = ar.highest cs s :=
  h.pick hs

theorem mem_of_foldl_eq_some {g : Option Nat → Nat → Option Nat}
    (hg : ∀ best x, g best x = some x ∨ g best x = best) :
    ∀ (l : List Nat) (best : Option Nat) {c : Nat}, l.foldl g best = some c → c ∈ l ∨ best = some c
  | [], _, _, h => .inr h
  | x :: l, best, c, h => by
    rcases mem_of_foldl_eq_some hg l (g best x) h with h | h
    · exact .inl (List.mem_cons_of_mem x h)
    · rcases hg best x with hx | hx
      · rw [hx] at h
        cases h
        exact .inl List.mem_cons_self
      · rw [hx] at h
        exact .inr h

theorem mem_of_pick {l : List Nat} {c : Nat} (h : ar.pick cs l = some c) : c ∈ l := by
  unfold Arena.pick at h
  refine (mem_of_foldl_eq_some (fun best x => ?_) l none h).resolve_right fun h => nomatch h
  cases best with
  | none => exact .inl rfl
  | some b =>
    dsimp only
    split
    · exact .inl rfl
    · exact .inr rfl

theorem mem_of_highest {s : SortedSet Nat} {c : Nat} (h : ar.highest cs s = some c) : c ∈ s.toList :=
  mem_of_pick h

end Arena

namespace Program

variable {ar ar' : Arena} {cs cs' : ConstraintStore} {d c : Nat}

/-- A definition and its declaration reconciled in an arena whose entries refer to its entries are
reconciled in every grown arena that keeps the slots' qualifiers: every entry the two read is
already there. -/
theorem Reconciled.transfer (hrec : Reconciled ar cs d c) (h : Arena.Agrees ar cs ar' cs')
    (hr : ar.RefsBelow) (hd : d < ar.size) (hc : c < ar.size) : Reconciled ar' cs' d c := by
  constructor
  · intro df cf dr cr hdf hcf hdr hcr hvalid hwild x hx q hq
    rw [h.function? hd] at hdf
    rw [h.function? hc] at hcf
    have hdret := (hr.function hdf).1
    have hcret := (hr.function hcf).1
    rw [h.highest hdret] at hdr
    rw [h.highest hcret] at hcr
    rw [h.isValid (hcret cr (Arena.mem_of_highest hcr))] at hvalid
    rw [h.outermost? (hdret dr (Arena.mem_of_highest hdr))] at hwild
    have hx' : x < ar.size := by
      rcases List.mem_append.1 hx with hx | hx
      · exact hdret x hx
      · exact hcret x hx
    rw [h.solvedChain hx'] at hq
    exact hrec.returns df cf dr cr hdf hcf hdr hcr hvalid hwild x hx q hq
  · intro df cf hdf hcf hlen x hx dp cp qd pc hdp hcp hqd hchecked hqc hpc arg harg qa pa pd hqa
      hchecked' hpa hpd y hy
    rw [h.function? hd] at hdf
    rw [h.function? hc] at hcf
    -- the alternatives at the position, the highest of each, and the declaration's arguments
    have hx1 : ∀ z ∈ x.1.toList, z < ar.size := (hr.function hdf).2 x.1 (List.of_mem_zip hx).1
    have hx2 : ∀ z ∈ x.2.toList, z < ar.size := (hr.function hcf).2 x.2 (List.of_mem_zip hx).2
    rw [h.highest hx1] at hdp
    rw [h.highest hx2] at hcp
    have hdp' := hx1 dp (Arena.mem_of_highest hdp)
    have hcp' := hx2 cp (Arena.mem_of_highest hcp)
    rw [h.outermost? hdp'] at hqd
    rw [h.outermost? hcp'] at hqc
    rw [h.pointer? hcp'] at hpc
    rw [h.pointer? hdp'] at hpd
    have harg' : arg < ar.size := (hr.pointer hpc).2 arg harg
    rw [h.outermost? harg'] at hqa
    rw [h.pointer? harg'] at hpa
    rw [h.assignment]
    exact hrec.params df cf hdf hcf hlen x hx dp cp qd pc hdp hcp hqd hchecked hqc hpc arg harg qa pa pd hqa
      hchecked' hpa hpd y hy

/-! ## Steps of a round -/

section Round

variable {p p' p'' q q' : Program}

/-- What the steps of a round of reconciliation leave: the arena grown by appending, the store
grown, the tables kept, and every declaration made up before still found. -/
structure RoundGrows (p p' : Program) : Prop where
  arena : p.arena.Appends p'.arena
  store : p.store.Grows p'.store
  tables : SameTables p p'
  synthesized : ∀ k id, p.synthesized.find? k = some id → p'.synthesized.find? k = some id

theorem RoundGrows.refl (p : Program) : RoundGrows p p :=
  ⟨Arena.Appends.refl _, Grows.refl _, SameTables.refl p, fun _ _ h => h⟩

theorem RoundGrows.trans (h : RoundGrows p p') (h' : RoundGrows p' p'') : RoundGrows p p'' :=
  ⟨h.arena.trans h'.arena, h.store.trans h'.store, h.tables.trans h'.tables,
    fun k id hk => h'.synthesized k id (h.synthesized k id hk)⟩

theorem RoundGrows.agrees (h : RoundGrows p p') : Arena.Agrees p.arena p.store p'.arena p'.store :=
  ⟨h.arena, funext fun v => h.store.extends.read_eq v⟩

theorem RoundGrows.size_le (h : RoundGrows p p') : p.store.size ≤ p'.store.size :=
  h.store.extends.entries.length_le

theorem roundGrows_reconcilePair (hw : q.Wf) (d c : Nat) :
    RoundGrows q { q with store := reconcilePair q.arena q.store d c } :=
  ⟨Arena.Appends.refl _, growsFrom_reconcilePair hw.slots d c _ (Nat.le_refl _),
    ⟨rfl, rfl, rfl, rfl, rfl, rfl, rfl⟩, fun _ _ h => h⟩

theorem roundGrows_synthesize (hw : q.Wf) {key : DeclKey} {c : Nat} (h : (synthesize key).run q = .ok c q') :
    RoundGrows q q' := by
  have he := (keeps_synthesize key q hw).2
  have ht := keepsTables_synthesize key q
  rw [h] at he ht
  rcases synthesize_cases key q with ⟨id, -, h'⟩ | ⟨e, h'⟩ | ⟨f, hnone, -, h'⟩ <;> rw [h'] at h <;> cases h
  · exact RoundGrows.refl q
  · refine ⟨?_, he.store, ht, fun k id hk => ?_⟩
    · show q.arena.Appends (forceWildOpt _ _ _ _).arena
      rw [arena_forceWildOpt]
      exact (Arena.appended_build q.arena q.store _ _ _).appends
    · -- the key recorded was free, so it is not `k`
      have hne : k ≠ key.uniqueKey := fun heq => by
        rw [heq, hnone] at hk
        cases hk
      exact (SortedMap.find?_alter_of_ne hne _).trans hk

theorem declarationOf_cases {key : DeclKey} {c : Nat} (h : (declarationOf key).run q = .ok c q') :
    q' = q ∨ (synthesize key).run q = .ok c q' := by
  unfold declarationOf outOfContextFunction at h
  simp only [run_bind, run_get] at h
  split at h
  · cases h
  · split at h
    · cases h
      exact .inl rfl
    · split at h
      · cases h
        exact .inl rfl
      · exact .inr h

theorem roundGrows_declarationOf (hw : q.Wf) {key : DeclKey} {c : Nat}
    (h : (declarationOf key).run q = .ok c q') : RoundGrows q q' := by
  rcases declarationOf_cases h with rfl | h
  · exact RoundGrows.refl _
  · exact roundGrows_synthesize hw h

theorem synthesize_of_find? {key : DeclKey} {id : Nat} (h : q.synthesized.find? key.uniqueKey = some id) :
    (synthesize key).run q = .ok id q := by
  unfold synthesize
  simp only [run_bind, run_get, h]
  rfl

theorem declarationOf_rerun {key : DeclKey} {c : Nat} (h : (declarationOf key).run q = .ok c q')
    (hF : p''.functions = q'.functions)
    (hsyn : ∀ id, q'.synthesized.find? key.uniqueKey = some id → p''.synthesized.find? key.uniqueKey = some id) :
    (declarationOf key).run p'' = .ok c p'' := by
  have ht := keepsTables_declarationOf key q
  rw [h] at ht
  have hF' : p''.functions = q.functions := hF.trans ht.functions
  have hsyn' : ∀ id, q'.synthesized.find? key.uniqueKey = some id →
      (synthesize key).run p'' = .ok id p'' :=
    fun id hid => synthesize_of_find? (hsyn id hid)
  unfold declarationOf outOfContextFunction at h ⊢
  simp only [run_bind, run_get] at h ⊢
  rw [hF']
  split at h
  · cases h
  · next f _ =>
    split at h
    · next hdef =>
      cases h
      simp only [hdef, if_true]
      rfl
    · next hdef =>
      simp only [hdef]
      split at h
      · cases h
        rfl
      · -- the declaration made up: found in the cache, or made now and cached
        rcases synthesize_cases key q with ⟨id, hid, h'⟩ | ⟨e, h'⟩ | ⟨f', -, -, h'⟩ <;> rw [h'] at h <;>
          cases h
        · exact hsyn' c hid
        · exact hsyn' _ SortedMap.find?_insert_self

/-- Once the declaration side of a key was found or made, it is found again, with nothing changed,
after steps that keep the tables and the declarations made up. -/
theorem declarationOf_stable {key : DeclKey} {c : Nat} (h : (declarationOf key).run q = .ok c q')
    (hg : RoundGrows q' p'') : (declarationOf key).run p'' = .ok c p'' :=
  declarationOf_rerun h hg.tables.functions fun id => hg.synthesized _ id

end Round

/-! ## A round -/

/-- The turn of definition `f` in a round from `p` that ends at `p'`: from a program `q` the round
reached, the declaration side `c` was found (or made) in program `q₁`, from which the round only
grew; and when `c` is not the definition's own entry, the pair was reconciled in `q₁` and the
round grew from there. -/
def Turn (p : Program) (f : FunctionDecl) (p' : Program) : Prop :=
  ∃ q q₁ c, RoundGrows p q ∧ q.RefsOk ∧ (declarationOf f.key).run q = .ok c q₁ ∧ RoundGrows q₁ p' ∧
    (c ≠ f.entry → RoundGrows { q₁ with store := reconcilePair q₁.arena q₁.store f.entry c } p')

theorem Turn.of_roundGrows {f : FunctionDecl} (h : RoundGrows p q) (ht : Turn q f p') : Turn p f p' := by
  obtain ⟨q₀, q₁, c, hg, hq₀, hd, hg₁, hpair⟩ := ht
  exact ⟨q₀, q₁, c, h.trans hg, hq₀, hd, hg₁, hpair⟩

/-- Each step of the walk `g` over definitions finds the declaration side and reconciles the pair
when it differs. -/
def ReconcilesEach (g : FunctionDecl → PUnit → ProgramM (ForInStep PUnit)) : Prop :=
  ∀ f q r q₂, (g f PUnit.unit).run q = .ok r q₂ → r = .yield PUnit.unit ∧
    ∃ c q₁, (declarationOf f.key).run q = .ok c q₁ ∧
      q₂ = if (c != f.entry) = true then { q₁ with store := reconcilePair q₁.arena q₁.store f.entry c }
        else q₁

theorem forIn_turns {g : FunctionDecl → PUnit → ProgramM (ForInStep PUnit)} (hg : ReconcilesEach g) :
    ∀ (l : List FunctionDecl) (q₀ : Program), q₀.RefsOk → (forIn l PUnit.unit g).run q₀ = .ok PUnit.unit p' →
      RoundGrows q₀ p' ∧ ∀ f ∈ l, Turn q₀ f p' := by
  intro l
  induction l with
  | nil =>
    intro q₀ _ h
    cases h
    exact ⟨RoundGrows.refl _, fun _ h => nomatch h⟩
  | cons f l ih =>
    intro q₀ hq₀ h
    rw [List.forIn_cons] at h
    obtain ⟨r, q₂, h₁, h₂⟩ := run_bind_ok h
    obtain ⟨rfl, c, q₁, hd, rfl⟩ := hg f q₀ r q₂ h₁
    have hq₁ := ((keepsRefs_declarationOf (n := 0) f.key).run_ok hq₀ (Nat.zero_le _) hd).1
    have hg₁ := roundGrows_declarationOf hq₀.wf hd
    -- the pair is reconciled when the sides differ
    have hstep : RoundGrows q₁ (if (c != f.entry) = true then
          { q₁ with store := reconcilePair q₁.arena q₁.store f.entry c } else q₁) ∧
        (if (c != f.entry) = true then
          { q₁ with store := reconcilePair q₁.arena q₁.store f.entry c } else q₁).RefsOk := by
      split
      · exact ⟨roundGrows_reconcilePair hq₁.wf f.entry c,
          hq₁.withStore (growsFrom_reconcilePair hq₁.wf.slots f.entry c _ (Nat.le_refl _))⟩
      · exact ⟨RoundGrows.refl q₁, hq₁⟩
    obtain ⟨hgrow, hturns⟩ := ih _ hstep.2 h₂
    refine ⟨hg₁.trans (hstep.1.trans hgrow), fun f' hf' => ?_⟩
    rcases List.mem_cons.1 hf' with rfl | hf'
    · refine ⟨q₀, q₁, c, RoundGrows.refl q₀, hq₀, hd, hstep.1.trans hgrow, fun hne => ?_⟩
      rw [if_pos (bne_iff_ne.2 hne)] at hgrow
      exact hgrow
    · exact Turn.of_roundGrows (hg₁.trans hstep.1) (hturns f' hf')

theorem Turn.reconciled {f : FunctionDecl} (ht : Turn p f p') (hc : p.store.Closed p.store.env)
    (hsize : p'.store.size = p.store.size) (hf : f ∈ p.functions.values) :
    ∃ c, (declarationOf f.key).run p' = .ok c p' ∧
      (c ≠ f.entry → Reconciled p'.arena p'.store f.entry c) := by
  obtain ⟨q₀, q₁, c, hg₀, hq₀, hd, hg₁, hpair⟩ := ht
  refine ⟨c, declarationOf_stable hd hg₁, fun hne => ?_⟩
  have hq₁ := ((keepsRefs_declarationOf (n := 0) f.key).run_ok hq₀ (Nat.zero_le _) hd).1
  have hgrow : RoundGrows p q₁ := hg₀.trans (roundGrows_declarationOf hq₀.wf hd)
  -- the round ended with the constraints it began with, so it had added none by the turn, and
  -- the pair's reconciliation added none
  have hsz₁ : q₁.store.size ≤ p.store.size := hsize ▸ hg₁.size_le
  have hc₁ : q₁.store.Closed q₁.store.env := hgrow.store.closed hc hsz₁
  have hfix : (reconcilePair q₁.arena q₁.store f.entry c).size ≤ q₁.store.size :=
    calc (reconcilePair q₁.arena q₁.store f.entry c).size ≤ p'.store.size := (hpair hne).size_le
      _ = p.store.size := hsize
      _ ≤ q₁.store.size := hgrow.size_le
  -- the definition's entry and its declaration side are entries of the arena at the turn
  have hfe : f.entry < q₁.arena.size := by
    obtain ⟨k, hk⟩ := SortedMap.mem_values.1 hf
    have hk' : (k, f) ∈ q₁.functions.toList := by
      rw [hgrow.tables.functions]
      exact hk
    exact (hq₁.names.functions _ hk').lt_size
  have hce : c < q₁.arena.size :=
    yieldsBelow_declarationOf f.key q₀ hq₀ c q₁ hd c (List.mem_singleton_self c)
  exact (reconciled_of_fixed hc₁ hfix).transfer hg₁.agrees hq₁.refs hfe hce

theorem reconcile_loop {b : Bool} (h : reconcile.run p = .ok b p') :
    ∃ g : FunctionDecl → PUnit → ProgramM (ForInStep PUnit), ReconcilesEach g ∧
      (forIn (p.functions.values.filter (·.isDefinition)) PUnit.unit g).run p = .ok PUnit.unit p' ∧
      b = (p'.store.size != p.store.size) := by
  unfold reconcile at h
  simp only [run_bind, run_get] at h
  split at h
  · next u q hloop =>
    simp only [run_pure, EStateM.Result.ok.injEq] at h
    obtain ⟨rfl, rfl⟩ := h
    refine ⟨_, fun f q r q₂ hr => ?_, hloop, rfl⟩
    -- each step finds the declaration side and reconciles the pair when it differs
    obtain ⟨c, q₁, hd, h'⟩ := run_bind_ok hr
    refine ⟨?_, c, q₁, hd, ?_⟩ <;> split at h'
    · obtain ⟨u, q₃, hm, hy⟩ := run_bind_ok h'
      cases hm
      cases hy
      rfl
    · cases h'
      rfl
    · next hne =>
      obtain ⟨u, q₃, hm, hy⟩ := run_bind_ok h'
      cases hm
      cases hy
      rw [if_pos hne]
    · next hne =>
      cases h'
      rw [if_neg hne]
  · cases h

theorem reconciled_of_round (hp : p.RefsOk) (hc : p.store.Closed p.store.env)
    (h : reconcile.run p = .ok false p') :
    ∀ f ∈ p'.functions.values, f.isDefinition = true →
      ∃ c, (declarationOf f.key).run p' = .ok c p' ∧
        (c ≠ f.entry → Reconciled p'.arena p'.store f.entry c) := by
  have hsize := size_of_reconcile_false h
  have htab := keepsTables_reconcile p
  rw [h] at htab
  obtain ⟨g, hg, hloop, -⟩ := reconcile_loop h
  have hturns := (forIn_turns hg _ p hp hloop).2
  intro f hf hdef
  have hf' : f ∈ p.functions.values := htab.functions ▸ hf
  exact (hturns f (List.mem_filter.2 ⟨hf', hdef⟩)).reconciled hc hsize hf'

end Program

namespace Session

open Program

variable {s s' : Session} {mayFail : Session → Prop} {o : Options}

theorem reconcileRounds_of_quiet {n d ps : Nat} {p' : Program} (h : reconcile.run s.program = .ok false p') :
    (reconcileRounds (n + 1) d ps).run s = .ok (d + 1, ps) { s with program := p' } := by
  unfold reconcileRounds
  rw [run_bind, run_onProgram, h]
  rfl

theorem solveStore_leastClosed (hw : s.program.Wf) :
    ∃ n e, solveStore.run s =
        .ok n { s with program := { s.program with store := { s.program.store with env := e } } } ∧
      s.program.store.LeastClosed s.program.store.env e := by
  unfold solveStore
  rw [run_bind, run_get]
  dsimp only
  cases h : s.program.store.solve with
  | error err =>
    rw [solve_of_scoped hw.store.registered] at h
    cases h
  | ok r =>
    obtain ⟨heq, hl⟩ := leastClosed_solve h
    refine ⟨r.1.passes, r.2.env, ?_, hl⟩
    rw [← heq]
    rfl

theorem reconcileRounds_of_added {n d ps : Nat} {p₁ : Program} (hr : reconcile.run s.program = .ok true p₁)
    (hp₁ : p₁.RefsOk) :
    ∃ more e, (reconcileRounds (n + 1) d ps).run s =
        (reconcileRounds n (d + 1) (ps + more)).run
          { s with program := { p₁ with store := { p₁.store with env := e } } } ∧
      p₁.store.LeastClosed p₁.store.env e ∧
      ({ p₁ with store := { p₁.store with env := e } } : Program).RefsOk := by
  obtain ⟨more, e, hr₂, hl⟩ := solveStore_leastClosed (s := { s with program := p₁ }) hp₁.wf
  refine ⟨more, e, ?_, hl, solveStore_refsOk hp₁ hr₂⟩
  rw [reconcileRounds.eq_2, run_bind, run_onProgram, hr]
  dsimp only
  rw [if_neg (by decide), run_bind, hr₂]

theorem reconcileRounds_last (n : Nat) :
    ∀ (d ps : Nat) (s s' : Session) (r : Nat × Nat), s.program.RefsOk →
      s.program.store.Closed s.program.store.env → (reconcileRounds n d ps).run s = .ok r s' →
      r.1 < d + n → ∃ p, p.RefsOk ∧ p.store.Closed p.store.env ∧ reconcile.run p = .ok false s'.program := by
  induction n with
  | zero =>
    intro d ps s s' r _ _ h hlt
    cases h
    exact absurd hlt (Nat.lt_irrefl d)
  | succ n ih =>
    intro d ps s s' r hp hc h hlt
    obtain ⟨b, p1, hr, -, -, -⟩ := Program.reconcile_run hp.wf
    cases b with
    | false =>
      -- this round added nothing
      rw [reconcileRounds_of_quiet hr] at h
      cases h
      exact ⟨s.program, hp, hc, hr⟩
    | true =>
      -- this round added constraints; the store is solved and the next rounds run
      have hp1 := ((keepsRefs_reconcile (n := 0)).run_ok hp (Nat.zero_le _) hr).1
      obtain ⟨more, e, hnext, hl, hp2⟩ := reconcileRounds_of_added hr hp1
      rw [hnext] at h
      have hc2 : ({ p1.store with env := e } : ConstraintStore).Closed e := closed_withEnv_iff.2 hl.closed
      exact ih (d + 1) (ps + more) _ s' r hp2 hc2 h (by omega)

section Table

variable [UnifyTable]

/-- When a solve stops before its round limit, every definition it leaves is reconciled with its
declaration side. -/
theorem definitions_reconciled_of_early_stop (hr : Reachable mayFail o s) {sum : SolveSummary}
    (hs : solve.run s = .ok sum s') (hround : sum.rounds < s.program.options.maxReconcileRounds) :
    ∀ f ∈ s'.program.functions.values, f.isDefinition = true →
      ∃ c, (declarationOf f.key).run s'.program = .ok c s'.program ∧
        (c ≠ f.entry → Reconciled s'.program.arena s'.program.store f.entry c) := by
  have hp := hr.refsOk
  obtain ⟨prog, built, groups⟩ := s
  unfold solve at hs
  rw [run_bind, run_get] at hs
  dsimp only at hs
  split at hs
  · cases hs
  rw [run_bind] at hs
  -- the first solve of the store, which keeps the options
  obtain ⟨k, p1, h1, -, hc1, -⟩ := solveStore_run (s := ⟨prog, built, groups⟩) hp.wf
  have hp1 := solveStore_refsOk hp h1
  have hopt : p1.options = prog.options := (solveStore_growsOnly hp.wf h1).tables.options
  rw [h1] at hs
  dsimp only at hs
  rw [run_bind, run_get] at hs
  dsimp only at hs
  rw [run_bind] at hs
  -- then the rounds, whose count is the summary's
  cases h2 : (reconcileRounds p1.options.maxReconcileRounds 0 k).run ⟨p1, built, groups⟩ with
  | error e s2 =>
    rw [h2] at hs
    cases hs
  | ok r s2 =>
    rw [h2] at hs
    obtain ⟨rounds, passes⟩ := r
    cases hs
    have hlt : rounds < 0 + p1.options.maxReconcileRounds := by
      rw [Nat.zero_add, hopt]
      exact hround
    obtain ⟨p, hp', hc', hlast⟩ := reconcileRounds_last _ 0 k _ s2 _ hp1 hc1 h2 hlt
    exact reconciled_of_round hp' hc' hlast

end Table

/-- A definition with no declaration, called with a pointer forced to `wild`: the solve stops after
one round, and the definition is reconciled with the declaration made up for it. -/
theorem definitions_reconciled_of_early_stop_of_call :
    let fKey : DeclKey := ⟨"a.c", 1, 1, "f"⟩
    let qKey : DeclKey := ⟨"a.c", 2, 1, "q"⟩
    let facts : List Fact :=
      [.declare { key := fKey, kind := .function, isGlobal := true, isDefinition := true,
                  ty := TypeShape.ofSignature (TypeShape.pointer "int" 1)
                    [ParamShape.new "p" (TypeShape.pointer "int" 1)] },
       .declare { key := qKey, kind := .variable, ty := TypeShape.pointer "int" 1, inMacro := true },
       .call (.decl fKey false) [.decl qKey true] none none]
    let s₁ := stateOf ((build facts).run (create {}))
    let s₂ := stateOf (solve.run s₁)
    Reachable (fun _ => True) {} s₁ ∧
      (∃ sum, solve.run s₁ = .ok sum s₂ ∧ sum.rounds < s₁.program.options.maxReconcileRounds) ∧
      ∀ f ∈ s₂.program.functions.values, f.isDefinition = true →
        ∃ c, (declarationOf f.key).run s₂.program = .ok c s₂.program ∧
          (c ≠ f.entry → Reconciled s₂.program.arena s₂.program.store f.entry c) := by
  intro fKey qKey facts s₁ s₂
  have hr₁ : Reachable (fun _ => True) {} s₁ :=
    Relation.ReflTransGen.single (Step.build (create {}) facts fun _ _ _ => trivial)
  -- the solve is read off its run lemma: the elaborator does not unfold its rounds
  obtain ⟨sum, hs⟩ : ∃ sum, solve.run s₁ = .ok sum s₂ := by
    rcases solve_run hr₁.wf with ⟨hnb, -⟩ | ⟨-, r, p, hr, -⟩
    · exact absurd hnb (by decide +kernel)
    · refine ⟨r, ?_⟩
      show solve.run s₁ = .ok r (stateOf (solve.run s₁))
      rw [hr, stateOf_ok]
  have hround : sum.rounds < s₁.program.options.maxReconcileRounds := by
    have h : (match solve.run s₁ with
      | .ok r _ => r.rounds
      | .error _ _ => 0) < s₁.program.options.maxReconcileRounds := by decide +kernel
    rw [hs] at h
    exact h
  exact ⟨hr₁, ⟨sum, hs, hround⟩, definitions_reconciled_of_early_stop hr₁ hs hround⟩

end Session

end CheckedPointers
