import CheckedPointers.Proofs.ReconcileRound
import CheckedPointers.Proofs.FunctionLinking

/-!
# Reconciliation reaches its fixpoint within `3 * V + 1` rounds

A solve alternates rounds of reconciliation with solves of the store until a round adds no
constraint (`Session.rounds_reach_fixpoint`). The first round may make up declarations, and with
them slots; after it every definition finds its declaration side with nothing to make up
(`Program.Settled`), and a round changes the store by a function of the store alone
(`Program.roundStore`, `Program.reconcile_settled`).

Each step of a round decides from the environment alone (`ConstraintStore.Settles`): what it adds
is read off the qualifiers of the slots, and a store with the same environment that already asks
all of it is left as it is. So a round repeated at the environment it ran at adds nothing
(`Settles.idem`). A round that adds constraints is followed by a solve, which can only raise the
environment; if it raises nothing, the next round adds nothing, and otherwise the weight of the
environment (`weight`, the sum of the heights of the slots) grows. The weight is at most `3 * V`
over `V` slots. Every rule of reconciliation starts from a `wild` slot, so with none the round
adds nothing (`Program.reconcilePair_of_noWild`), and a `wild` slot puts the weight at `3` or
more. Counting from the first round, the rounds end within `3 * V + 1`.
-/

namespace CheckedPointers

open ConstraintStore

namespace ConstraintStore

variable {cs cs' : ConstraintStore} {r : Relation} {reason : String} {loc : Option SourceLoc}
  {e : Array Qualifier}

/-! ## Steps that decide from the environment -/

/-- Adding `r` leaves the store as it is: `r` relates two constants, or is there already. -/
def Absorbs (cs : ConstraintStore) (r : Relation) : Prop :=
  (∃ a b, r = .eq (.const a) (.const b)) ∨ cs.Asks r

theorem add_of_absorbs (h : cs.Absorbs r) : (cs.add r reason loc).2 = cs := by
  unfold add
  split
  · rfl
  · next hne =>
    split
    · rfl
    · next hid =>
      -- the index finds every live relation, so it lets no relation asked for through
      rcases h with ⟨a, b, rfl⟩ | ⟨x, hx, hrx⟩
      · exact absurd rfl (hne a b)
      · exact absurd hrx (idOf?_eq_none_iff.1 hid x hx)

theorem absorbs_add (cs : ConstraintStore) (r : Relation) (reason : String) (loc : Option SourceLoc) :
    (cs.add r reason loc).2.Absorbs r := by
  by_cases hc : ∃ a b, r = .eq (.const a) (.const b)
  · exact .inl hc
  · exact .inr (asks_add (fun a b h => hc ⟨a, b, h⟩) reason loc)

/-- From `cs` the step only adds constraints and keeps the environment, and a store with the same
environment that already asks everything the step left in `cs` is left as it is: what the step
adds is decided by the environment alone. -/
structure SettlesAt (f : ConstraintStore → ConstraintStore) (cs : ConstraintStore) : Prop where
  env : (f cs).env = cs.env
  entries : cs.entries <+: (f cs).entries
  fixed : ∀ cs', cs'.env = cs.env → (∀ r, (f cs).Asks r → cs'.Asks r) → f cs' = cs'

/-- The step decides from the environment alone, from every store. -/
def Settles (f : ConstraintStore → ConstraintStore) : Prop := ∀ cs, SettlesAt f cs

variable {f g : ConstraintStore → ConstraintStore}

theorem SettlesAt.congr (hg : SettlesAt g cs) (hfg : ∀ cs', cs'.env = cs.env → f cs' = g cs') :
    SettlesAt f cs := by
  have hcs := hfg cs rfl
  refine ⟨hcs ▸ hg.env, hcs ▸ hg.entries, fun cs' henv hasks => ?_⟩
  rw [hfg cs' henv]
  exact hg.fixed cs' henv (hcs ▸ hasks)

/-- Repeated at the environment it ran at, a step deciding from the environment changes nothing. -/
theorem Settles.idem (h : Settles f) (cs : ConstraintStore) : f (f cs) = f cs :=
  (h cs).fixed (f cs) (h cs).env fun _ hr => hr

theorem settles_id : Settles fun cs => cs :=
  fun _ => ⟨rfl, List.prefix_refl _, fun _ _ _ => rfl⟩

theorem settles_add (r : Relation) (reason : String) (loc : Option SourceLoc) :
    Settles fun cs => (cs.add r reason loc).2 := by
  intro cs
  refine ⟨add_env cs r reason loc, entries_prefix_add cs r reason loc, fun cs' _ hasks => ?_⟩
  rcases absorbs_add cs r reason loc with hc | ha
  · exact add_of_absorbs (.inl hc)
  · exact add_of_absorbs (.inr (hasks r ha))

theorem settles_addGeq (v : Nat) (q : Qualifier) (reason : String) (loc : Option SourceLoc) :
    Settles fun cs => (cs.addGeq v q reason loc).2 :=
  settles_add (.geq v q) reason loc

theorem Settles.comp (hf : Settles f) (hg : Settles g) : Settles fun cs => g (f cs) := by
  intro cs
  have hf' := hf cs
  have hg' := hg (f cs)
  refine ⟨hg'.env.trans hf'.env, hf'.entries.trans hg'.entries, fun cs' henv hasks => ?_⟩
  -- the first step finds everything it would add, and then so does the second
  have h₁ : f cs' = cs' := hf'.fixed cs' henv fun r hr => hasks r (hr.mono hg'.entries)
  show g (f cs') = cs'
  rw [h₁]
  exact hg'.fixed cs' (henv.trans hf'.env.symm) hasks

theorem Settles.foldl {β : Type} {step : ConstraintStore → β → ConstraintStore} {l : List β}
    (h : ∀ x ∈ l, Settles fun cs => step cs x) : Settles fun cs => l.foldl step cs := by
  induction l with
  | nil => exact settles_id
  | cons x l ih =>
    exact (h x List.mem_cons_self).comp (ih fun y hy => h y (List.mem_cons_of_mem x hy))

theorem Settles.ite {c : ConstraintStore → Bool} (hc : ∀ cs cs', cs'.env = cs.env → c cs' = c cs)
    (hf : Settles f) (hg : Settles g) : Settles fun cs => if c cs then f cs else g cs := by
  intro cs
  cases h : c cs
  · refine (hg cs).congr fun cs' henv => ?_
    simp only [hc cs cs' henv, h, Bool.false_eq_true, if_false]
  · refine (hf cs).congr fun cs' henv => ?_
    simp only [hc cs cs' henv, h, if_true]

theorem assignment_congr (h : cs'.env = cs.env) : cs'.assignment = cs.assignment := by
  unfold assignment
  rw [h]

/-! ## Slots and weight -/

variable {e' : Array Qualifier} {v : Nat}

theorem Below.weight_lt_of_ne (h : Below e e') (hne : e ≠ e') : weight e < weight e' := by
  obtain ⟨v, hv, hlt⟩ : ∃ v, v < e.size ∧ read e (.var v) < read e' (.var v) := by
    refine Classical.byContradiction fun hno => hne (h.antisymm ⟨h.1.symm, fun v => ?_⟩)
    by_cases hv : v < e.size
    · exact Nat.le_of_not_lt fun hlt => hno ⟨v, hv, hlt⟩
    · rw [read_of_size_le (by rw [← h.1]; omega)]
      exact Qualifier.ptr_le _
  exact h.weight_lt hv hlt

theorem three_le_weight (hv : v < e.size) (hw : read e (.var v) = .wild) : 3 ≤ weight e := by
  unfold weight
  calc 3 = (read e (.var v)).height := by rw [hw]; rfl
    _ ≤ ∑ w ∈ Finset.range e.size, (read e (.var w)).height :=
      Finset.single_le_sum (f := fun w => (read e (.var w)).height) (fun _ _ => Nat.zero_le _)
        (Finset.mem_range.2 hv)

theorem Relation.exists_var (hc : ¬ ∃ a b, r = .eq (.const a) (.const b)) : ∃ v, v ∈ r.vars := by
  cases r with
  | eq l r =>
    cases l with
    | var v => exact ⟨v, by simp [Relation.vars, Atom.asVar?]⟩
    | const a =>
      cases r with
      | var v => exact ⟨v, by simp [Relation.vars, Atom.asVar?]⟩
      | const b => exact absurd ⟨a, b, rfl⟩ hc
  | geq v q => exact ⟨v, List.mem_singleton_self v⟩

theorem StoreStep.numVars_pos (h : StoreStep cs cs') (hlt : cs.size < cs'.size) : 0 < cs'.numVars := by
  cases h with
  | fresh => simp
  | add r reason loc hv hr =>
    by_cases hc : ∃ a b, r = .eq (.const a) (.const b)
    · rw [add_of_absorbs (.inl hc)] at hlt
      exact absurd hlt (Nat.lt_irrefl _)
    · obtain ⟨v, hvr⟩ := Relation.exists_var hc
      have hnum : (cs.add r reason loc).2.numVars = cs.numVars := by simp [numVars]
      rw [hnum]
      exact Nat.lt_of_le_of_lt (Nat.zero_le v) (hv v hvr)
  | chain ch hv hhead =>
    simp [size] at hlt

theorem Grows.numVars_pos (h : Grows cs cs') (hlt : cs.size < cs'.size) : 0 < cs'.numVars := by
  induction h with
  | refl => exact absurd hlt (Nat.lt_irrefl _)
  | @tail mid _ _ step ih =>
    -- the constraint came before the last step, or with it
    by_cases hmid : cs.size < mid.size
    · exact Nat.lt_of_lt_of_le (ih hmid) step.extends.numVars_le
    · exact step.numVars_pos (by omega)

end ConstraintStore

namespace Arena

variable {ar : Arena} {cs cs' : ConstraintStore}

/-! ## What the arena reads from a store -/

theorem rank_congr (h : cs'.assignment = cs.assignment) : ar.rank cs' = ar.rank cs := by
  funext id
  induction id using Nat.strong_induction_on with
  | _ id ih =>
    rw [Arena.rank.eq_def ar cs', Arena.rank.eq_def ar cs, h]
    split
    · rfl
    · congr 1
      funext best c
      split
      · next hc => rw [ih c.1 hc]
      · rfl
    · rfl

theorem pick_congr (h : cs'.assignment = cs.assignment) (l : List Nat) : ar.pick cs' l = ar.pick cs l := by
  unfold pick
  rw [rank_congr h]

theorem highest_congr (h : cs'.assignment = cs.assignment) (s : SortedSet Nat) :
    ar.highest cs' s = ar.highest cs s :=
  pick_congr h _

theorem outermost?_congr (h : cs'.assignment = cs.assignment) (id : Nat) :
    ar.outermost? cs' id = ar.outermost? cs id := by
  unfold outermost?
  rw [h]

theorem highestNonWild_congr (h : cs'.assignment = cs.assignment) (s : SortedSet Nat) :
    ar.highestNonWild cs' s = ar.highestNonWild cs s := by
  unfold highestNonWild
  simp only [outermost?_congr h, pick_congr h]

theorem settles_constrainToWild (ar : Arena) (id : Nat) (reason : String) (loc : Option SourceLoc) :
    Settles fun cs => ar.constrainToWild cs id reason loc :=
  Settles.foldl fun v _ => settles_addGeq v .wild reason loc

theorem settles_constrainSetToWild (ar : Arena) (s : SortedSet Nat) (reason : String) (loc : Option SourceLoc) :
    Settles fun cs => ar.constrainSetToWild cs s reason loc :=
  Settles.foldl fun c _ => settles_constrainToWild ar c reason loc

end Arena

namespace Program

open Arena

variable {ar : Arena} {cs cs' : ConstraintStore}

/-! ## The steps of a round decide from the environment -/

theorem settles_widenReturn (ar : Arena) (dr src : Nat) : Settles fun cs => widenReturn ar cs dr src := by
  intro cs
  refine SettlesAt.congr (g := ?g) ?hg fun cs' henv => ?hfg
  case hfg =>
    -- the qualifiers compared are read from the environment
    unfold widenReturn
    rw [assignment_congr henv]
  case hg =>
    split
    · exact settles_id cs
    · refine Settles.foldl (fun x _ => ?_) cs
      obtain ⟨⟨tv, sv⟩, i⟩ := x
      dsimp only
      split
      · exact settles_addGeq _ _ _ _
      · split
        · exact settles_addGeq _ _ _ _
        · exact settles_id

theorem settles_widenArgument (ar : Arena) (arg dp : Nat) :
    Settles fun cs => widenArgument ar cs arg dp := by
  intro cs
  refine SettlesAt.congr (g := ?g) ?hg fun cs' henv => ?hfg
  case hfg =>
    unfold widenArgument
    rw [assignment_congr henv]
  case hg =>
    split
    · exact settles_id cs
    · refine Settles.foldl (fun x _ => ?_) cs
      obtain ⟨av, dv⟩ := x
      dsimp only
      split
      · exact settles_addGeq _ _ _ _
      · exact settles_id

theorem settles_reconcileReturns (ar : Arena) (df cf : FunctionEntry) :
    Settles fun cs => reconcileReturns ar cs df cf := by
  intro cs
  refine SettlesAt.congr (g := ?g) ?hg fun cs' henv => ?hfg
  case hfg =>
    -- the alternatives compared and their qualifiers are read from the environment
    have h := assignment_congr henv
    unfold reconcileReturns
    simp only [highest_congr h, outermost?_congr h, highestNonWild_congr h]
    rfl
  case hg =>
    split
    · split
      · split
        · exact (settles_constrainSetToWild ar _ _ _).comp (settles_constrainSetToWild ar _ _ _) cs
        · split
          · split
            · split
              · exact settles_widenReturn ar _ _ cs
              · exact settles_id cs
            · exact settles_id cs
          · exact settles_id cs
      · exact settles_id cs
    · exact settles_id cs

theorem settles_reconcileParam (ar : Arena) (dps cps : SortedSet Nat) :
    Settles fun cs => reconcileParam ar cs dps cps := by
  intro cs
  refine SettlesAt.congr (g := ?g) ?hg fun cs' henv => ?hfg
  case hfg =>
    have h := assignment_congr henv
    unfold reconcileParam
    simp only [highest_congr h, outermost?_congr h]
    rfl
  case hg =>
    split
    · split
      · exact settles_id cs
      · split
        · exact settles_id cs
        · split
          · exact settles_id cs
          · -- each checked argument is widened, judged on the store at hand
            refine Settles.foldl (fun arg _ => ?_) cs
            exact Settles.ite (fun cs cs' henv => by rw [outermost?_congr (assignment_congr henv)])
              (settles_widenArgument ar arg _) settles_id
    · exact settles_id cs

theorem settles_reconcilePair (ar : Arena) (d c : Nat) : Settles fun cs => reconcilePair ar cs d c := by
  unfold reconcilePair
  split
  · dsimp only
    split
    · exact settles_reconcileReturns ar _ _
    · exact (settles_reconcileReturns ar _ _).comp (Settles.foldl fun x _ => settles_reconcileParam ar x.1 x.2)
  · exact settles_id

/-! ## Rounds with no `wild` slot -/

theorem isWildOpt_outermost? (hno : ∀ v, cs.assignment v ≠ .wild) (ar : Arena) (id : Nat) :
    isWildOpt (ar.outermost? cs id) = false := by
  unfold Arena.outermost?
  split
  · next pe _ =>
    cases pe.slots.head? with
    | none => rfl
    | some v =>
      rw [Option.map_some, isWildOpt]
      exact Bool.eq_false_iff.2 fun h => hno v (Qualifier.isWild_iff.1 h)
  · rfl

theorem reconcileReturns_of_noWild (hno : ∀ v, cs.assignment v ≠ .wild) (ar : Arena) (df cf : FunctionEntry) :
    reconcileReturns ar cs df cf = cs := by
  unfold reconcileReturns
  simp only [isWildOpt_outermost? hno, Bool.false_eq_true, ↓reduceIte, ite_self]
  split <;> rfl

theorem reconcileParam_of_noWild (hno : ∀ v, cs.assignment v ≠ .wild) (ar : Arena) (dps cps : SortedSet Nat) :
    reconcileParam ar cs dps cps = cs := by
  unfold reconcileParam
  simp only [isWildOpt_outermost? hno, Bool.not_false, ↓reduceIte, ite_self]
  split <;> rfl

/-- Every rule of reconciliation starts from a `wild` qualifier: with none, nothing is added. -/
theorem reconcilePair_of_noWild (hno : ∀ v, cs.assignment v ≠ .wild) (ar : Arena) (d c : Nat) :
    reconcilePair ar cs d c = cs := by
  unfold reconcilePair
  split
  · simp only [reconcileReturns_of_noWild hno]
    split
    · rfl
    · exact List.foldl_fixed' (fun x => reconcileParam_of_noWild hno ar x.1 x.2) _
  · rfl

/-! ## A round from a settled program -/

/-- Every definition finds its declaration side with nothing left to make up. -/
def Settled (p : Program) : Prop :=
  ∀ f ∈ p.functions.values, f.isDefinition = true → ∃ c, (declarationOf f.key).run p = .ok c p

/-- The turn of a definition in a round from a settled program: reconciled with the declaration
side call sites see, when the two differ. -/
def roundStep (p : Program) (cs : ConstraintStore) (f : FunctionDecl) : ConstraintStore :=
  match p.declarationSide? f.key with
  | some c => if c != f.entry then reconcilePair p.arena cs f.entry c else cs
  | none => cs

/-- The store a round from a settled program leaves, the definitions taken in key order. -/
def roundStore (p : Program) (cs : ConstraintStore) : ConstraintStore :=
  (p.functions.values.filter (·.isDefinition)).foldl p.roundStep cs

variable {p p' : Program} {b : Bool}

theorem settles_roundStore (p : Program) : Settles p.roundStore := by
  refine Settles.foldl fun f _ => ?_
  unfold roundStep
  split
  · split
    · exact settles_reconcilePair p.arena _ _
    · exact settles_id
  · exact settles_id

theorem roundStore_of_noWild (hno : ∀ v, cs.assignment v ≠ .wild) (p : Program) : p.roundStore cs = cs := by
  refine List.foldl_fixed' (fun f => ?_) _
  unfold roundStep
  split
  · split
    · exact reconcilePair_of_noWild hno _ _ _
    · rfl
  · rfl

theorem declarationOf_withStore {key : DeclKey} {c : Nat} (h : (declarationOf key).run p = .ok c p)
    (cs : ConstraintStore) : (declarationOf key).run { p with store := cs } = .ok c { p with store := cs } :=
  declarationOf_rerun h rfl fun _ h => h

theorem Settled.withStore (hs : p.Settled) (cs : ConstraintStore) : Settled { p with store := cs } := by
  intro f hf hdef
  obtain ⟨c, hc⟩ := hs f hf hdef
  exact ⟨c, declarationOf_withStore hc cs⟩

theorem Settled.declarationSide?_withStore (hs : p.Settled) (cs : ConstraintStore) {f : FunctionDecl}
    (hf : f ∈ p.functions.values) (hdef : f.isDefinition = true) :
    ({ p with store := cs } : Program).declarationSide? f.key = p.declarationSide? f.key := by
  obtain ⟨c, hc⟩ := hs f hf hdef
  unfold declarationSide?
  rw [hc, declarationOf_withStore hc cs]

theorem Settled.roundStore_withStore (hs : p.Settled) (cs : ConstraintStore) :
    ({ p with store := cs } : Program).roundStore = p.roundStore := by
  funext cs'
  refine List.foldl_ext _ _ _ fun acc f hf => ?_
  obtain ⟨hf, hdef⟩ := List.mem_filter.1 hf
  unfold roundStep
  rw [hs.declarationSide?_withStore cs hf hdef]

theorem settled_of_reconcile (hp : p.RefsOk) (h : reconcile.run p = .ok b p') : p'.Settled := by
  have htab := keepsTables_reconcile p
  rw [h] at htab
  obtain ⟨g, hg, hloop, -⟩ := reconcile_loop h
  have hturns := (forIn_turns hg _ p hp hloop).2
  intro f hf hdef
  have hf' : f ∈ p.functions.values := htab.functions ▸ hf
  obtain ⟨q, q₁, c, -, -, hd, hg₁, -⟩ := hturns f (List.mem_filter.2 ⟨hf', hdef⟩)
  exact ⟨c, declarationOf_stable hd hg₁⟩

theorem forIn_roundStep (hs : p.Settled) {g : FunctionDecl → PUnit → ProgramM (ForInStep PUnit)}
    (hg : ReconcilesEach g) :
    ∀ (l : List FunctionDecl), (∀ f ∈ l, f ∈ p.functions.values ∧ f.isDefinition = true) →
      ∀ (cs : ConstraintStore) (p' : Program),
        (forIn l PUnit.unit g).run { p with store := cs } = .ok PUnit.unit p' →
          p' = { p with store := l.foldl p.roundStep cs } := by
  intro l
  induction l with
  | nil =>
    intro _ cs p' h
    cases h
    rfl
  | cons f l ih =>
    intro hl cs p' h
    rw [List.forIn_cons] at h
    obtain ⟨r, q₂, h₁, h₂⟩ := run_bind_ok h
    obtain ⟨rfl, c, q₁, hd, rfl⟩ := hg f _ r q₂ h₁
    obtain ⟨hf, hdef⟩ := hl f List.mem_cons_self
    -- the lookup finds the declaration side with nothing changed, whatever the store
    obtain ⟨c₀, hc₀⟩ := hs f hf hdef
    rw [declarationOf_withStore hc₀ cs] at hd
    cases hd
    have hturn : (if (c != f.entry) = true then
          { ({ p with store := cs } : Program) with store := reconcilePair p.arena cs f.entry c }
        else { p with store := cs }) = { p with store := p.roundStep cs f } := by
      have hside : p.declarationSide? f.key = some c := by
        unfold declarationSide?
        rw [hc₀]
      simp only [roundStep, hside]
      split <;> rfl
    refine ih (fun f' hf' => hl f' (List.mem_cons_of_mem f hf')) _ p' ?_
    rw [← hturn]
    exact h₂

/-- A round from a settled program changes the store by `roundStore` and tells whether that added
constraints. -/
theorem reconcile_settled (hp : p.RefsOk) (hs : p.Settled) :
    reconcile.run p = .ok ((p.roundStore p.store).size != p.store.size) { p with store := p.roundStore p.store } := by
  obtain ⟨b, p', hr, -⟩ := reconcile_run hp.wf
  obtain ⟨g, hg, hloop, rfl⟩ := reconcile_loop hr
  have hp' : p' = { p with store := p.roundStore p.store } :=
    forIn_roundStep hs hg _ (fun f hf => List.mem_filter.1 hf) p.store p' hloop
  subst hp'
  exact hr

end Program

namespace Session

open Program

variable {s s' : Session} {mayFail : Session → Prop} {o : Options}

theorem reconcileRounds_of_fixed {n d ps : Nat} {r : Nat × Nat} (hq : reconcile.run s.program = .ok false s.program)
    (h : (reconcileRounds n d ps).run s = .ok r s') : r.1 ≤ d + 1 ∧ (0 < n → s' = s) := by
  cases n with
  | zero =>
    cases h
    exact ⟨Nat.le_succ d, fun hn => absurd hn (Nat.lt_irrefl 0)⟩
  | succ n =>
    rw [reconcileRounds_of_quiet hq] at h
    cases h
    exact ⟨Nat.le_refl _, fun _ => rfl⟩

theorem reconcileRounds_settled (n : Nat) :
    ∀ (d ps : Nat) (s s' : Session) (r : Nat × Nat), s.program.RefsOk → s.program.Settled →
      s.program.store.Closed s.program.store.env → (reconcileRounds n d ps).run s = .ok r s' →
      r.1 + weight s.program.store.env ≤ d + 3 * s.program.store.numVars + 2 ∧
      (3 * s.program.store.numVars + 2 ≤ n + weight s.program.store.env →
        ∃ p, p.RefsOk ∧ p.store.Closed p.store.env ∧ reconcile.run p = .ok false s'.program) := by
  induction n with
  | zero =>
    intro d ps s s' r _ _ _ h
    cases h
    have hW := weight_le s.program.store.env
    refine ⟨?_, fun hle => ?_⟩ <;> unfold numVars at * <;> omega
  | succ n ih =>
    intro d ps s s' r hp hs hc h
    obtain ⟨p, built, groups⟩ := s
    dsimp only at hp hs hc ⊢
    have hW := weight_le p.store.env
    have hset := settles_roundStore p p.store
    have hrec := reconcile_settled hp hs
    by_cases hq : (p.roundStore p.store).size = p.store.size
    · -- the round added nothing: the rounds end here
      rw [hq, bne_self_eq_false] at hrec
      rw [reconcileRounds_of_quiet (s := ⟨p, built, groups⟩) hrec] at h
      cases h
      exact ⟨by unfold numVars; omega, fun _ => ⟨p, hp, hc, hrec⟩⟩
    · -- the round added constraints, and the store is solved from the environment it kept
      rw [bne_iff_ne.2 hq] at hrec
      have hp₁ := ((keepsRefs_reconcile (n := 0)).run_ok hp (Nat.zero_le _) hrec).1
      obtain ⟨more, e, hnext, hl, hp₂⟩ := reconcileRounds_of_added (s := ⟨p, built, groups⟩) hrec hp₁
      rw [hnext] at h
      dsimp only at h hl
      have hbelow : Below p.store.env e := hset.env ▸ hl.above
      have hsize : e.size = p.store.env.size := hbelow.1.symm
      by_cases he : e = p.store.env
      · -- nothing rose: the next round repeats this one at the same environment, and adds nothing
        have hS : ({ p.roundStore p.store with env := e } : ConstraintStore) = p.roundStore p.store := by
          rw [he, ← hset.env]
        rw [hS] at h hp₂
        have hc₂ : (p.roundStore p.store).Closed (p.roundStore p.store).env := by
          rw [hset.env, ← he]
          exact hl.closed
        have hquiet : reconcile.run { p with store := p.roundStore p.store } =
            .ok false { p with store := p.roundStore p.store } := by
          rw [reconcile_settled hp₂ (hs.withStore _)]
          dsimp only
          rw [hs.roundStore_withStore, (settles_roundStore p).idem, bne_self_eq_false]
        obtain ⟨hle, hend⟩ := reconcileRounds_of_fixed (s := ⟨_, built, groups⟩) hquiet h
        refine ⟨by unfold numVars; omega, fun hn => ⟨_, hp₂, hc₂, ?_⟩⟩
        rw [hend (by unfold numVars at hn; omega)]
        exact hquiet
      · -- the environment rose, and with it the weight
        have hlt := hbelow.weight_lt_of_ne (Ne.symm he)
        have hc₂ : ({ p.roundStore p.store with env := e } : ConstraintStore).Closed e :=
          closed_withEnv_iff.2 hl.closed
        obtain ⟨h₁, h₂⟩ := ih (d + 1) (ps + more) _ s' r hp₂ (hs.withStore _) hc₂ h
        simp only [numVars] at h₁ h₂ ⊢
        exact ⟨by omega, fun hle => h₂ (by omega)⟩

theorem reconcileRounds_within (hp : s.program.RefsOk) (hc : s.program.store.Closed s.program.store.env)
    {M ps : Nat} {r : Nat × Nat} (h : (reconcileRounds M 0 ps).run s = .ok r s') :
    let V := (stateOf (reconcile.run s.program)).store.numVars
    r.1 ≤ 3 * V + 1 ∧
      (3 * V + 1 ≤ M →
        ∃ p, p.RefsOk ∧ p.store.Closed p.store.env ∧ reconcile.run p = .ok false s'.program) := by
  obtain ⟨prog, built, groups⟩ := s
  dsimp only at hp hc ⊢
  obtain ⟨b, p₁, hr₁, -, he₁, -⟩ := Program.reconcile_run hp.wf
  rw [hr₁, stateOf_ok]
  cases M with
  | zero =>
    cases h
    exact ⟨Nat.zero_le _, fun hle => absurd hle (by omega)⟩
  | succ m =>
    cases b with
    | false =>
      rw [reconcileRounds_of_quiet (s := ⟨prog, built, groups⟩) hr₁] at h
      cases h
      exact ⟨by omega, fun _ => ⟨prog, hp, hc, hr₁⟩⟩
    | true =>
      -- the first round added a constraint, so there is a slot
      obtain ⟨-, -, -, hb⟩ := reconcile_loop hr₁
      have hgrow : prog.store.size < p₁.store.size :=
        Nat.lt_of_le_of_ne he₁.store.extends.entries.length_le (bne_iff_ne.1 hb.symm).symm
      have hpos := he₁.store.numVars_pos hgrow
      have hp₁ := ((keepsRefs_reconcile (n := 0)).run_ok hp (Nat.zero_le _) hr₁).1
      obtain ⟨more, e, hnext, hl, hp₂⟩ := reconcileRounds_of_added (s := ⟨prog, built, groups⟩) hr₁ hp₁
      rw [hnext] at h
      dsimp only at h
      have hs₂ := (settled_of_reconcile hp hr₁).withStore { p₁.store with env := e }
      have hc₂ : ({ p₁.store with env := e } : ConstraintStore).Closed e := closed_withEnv_iff.2 hl.closed
      have hsize : e.size = p₁.store.numVars := hl.above.1.symm
      by_cases hwild : ∃ v, read e (.var v) = .wild
      · -- a `wild` slot weighs three, which leaves the later rounds at most `3 * V - 1`
        obtain ⟨v, hv⟩ := hwild
        have hvlt : v < e.size := by
          refine Nat.lt_of_not_le fun hge => ?_
          rw [read_of_size_le hge] at hv
          cases hv
        have h3 := three_le_weight hvlt hv
        obtain ⟨h₁, h₂⟩ := reconcileRounds_settled m 1 (ps + more) _ s' r hp₂ hs₂ hc₂ h
        simp only [numVars] at h₁ h₂ hsize ⊢
        exact ⟨by omega, fun hle => h₂ (by omega)⟩
      · -- with no `wild` slot the second round adds nothing
        have hno : ∀ v, ({ p₁.store with env := e } : ConstraintStore).assignment v ≠ .wild :=
          fun v hv => hwild ⟨v, hv⟩
        have hquiet : reconcile.run { p₁ with store := { p₁.store with env := e } } =
            .ok false { p₁ with store := { p₁.store with env := e } } := by
          rw [reconcile_settled hp₂ hs₂]
          dsimp only
          rw [roundStore_of_noWild hno, bne_self_eq_false]
        obtain ⟨hle, hend⟩ := reconcileRounds_of_fixed (s := ⟨_, built, groups⟩) hquiet h
        refine ⟨by omega, fun hM => ⟨_, hp₂, hc₂, ?_⟩⟩
        rw [hend (by omega)]
        exact hquiet

section Table

variable [UnifyTable]

theorem solve_rounds_bound (hp : s.program.RefsOk) {sum : SolveSummary} (hs : solve.run s = .ok sum s') :
    let V := (stateOf (reconcile.run (stateOf (solveStore.run s)).program)).store.numVars
    sum.rounds ≤ 3 * V + 1 ∧
      (3 * V + 1 ≤ s.program.options.maxReconcileRounds →
        ∃ p, p.RefsOk ∧ p.store.Closed p.store.env ∧ reconcile.run p = .ok false s'.program) := by
  obtain ⟨prog, built, groups⟩ := s
  unfold solve at hs
  rw [run_bind, run_get] at hs
  dsimp only at hs
  split at hs
  · cases hs
  rw [run_bind] at hs
  -- the first solve of the store, which keeps the options
  obtain ⟨k, p₁, h₁, -, hc₁, -⟩ := solveStore_run (s := ⟨prog, built, groups⟩) hp.wf
  have hp₁ := solveStore_refsOk hp h₁
  have hopt : p₁.options = prog.options := (solveStore_growsOnly hp.wf h₁).tables.options
  rw [h₁] at hs
  dsimp only at hs
  rw [run_bind, run_get] at hs
  dsimp only at hs
  rw [run_bind] at hs
  -- then the rounds, whose count is the summary's
  cases h₂ : (reconcileRounds p₁.options.maxReconcileRounds 0 k).run ⟨p₁, built, groups⟩ with
  | error e s₂ =>
    rw [h₂] at hs
    cases hs
  | ok r s₂ =>
    rw [h₂] at hs
    obtain ⟨rounds, passes⟩ := r
    cases hs
    rw [h₁, stateOf_ok, ← hopt]
    exact reconcileRounds_within hp₁ hc₁ h₂

/-- Solving a built session that keeps the session invariants succeeds, and a round adding nothing
comes within `3 * V + 1` rounds. -/
theorem rounds_reach_fixpoint (hp : s.program.RefsOk) (hb : s.built = true) :
    ∃ sum s', solve.run s = .ok sum s' ∧
      let V := (stateOf (reconcile.run (stateOf (solveStore.run s)).program)).store.numVars
      sum.rounds ≤ 3 * V + 1 ∧
        (3 * V + 1 ≤ s.program.options.maxReconcileRounds →
          ∃ p, p.RefsOk ∧ p.store.Closed p.store.env ∧ reconcile.run p = .ok false s'.program) := by
  rcases solve_run hp.wf with ⟨hnb, -⟩ | ⟨-, sum, p, hs, -⟩
  · rw [hb] at hnb
    cases hnb
  · exact ⟨sum, _, hs, solve_rounds_bound hp hs⟩

end Table

/-- A definition with no declaration, called with a pointer forced to `wild`: the session is built,
and its solve returns within the bound the slots after the first round give. -/
theorem rounds_reach_fixpoint_of_call :
    let fKey : DeclKey := ⟨"a.c", 1, 1, "f"⟩
    let qKey : DeclKey := ⟨"a.c", 2, 1, "q"⟩
    let facts : List Fact :=
      [.declare { key := fKey, kind := .function, isGlobal := true, isDefinition := true,
                  ty := TypeShape.ofSignature (TypeShape.pointer "int" 1)
                    [ParamShape.new "p" (TypeShape.pointer "int" 1)] },
       .declare { key := qKey, kind := .variable, ty := TypeShape.pointer "int" 1, inMacro := true },
       .call (.decl fKey false) [.decl qKey true] none none]
    let s₁ := stateOf ((build facts).run (create {}))
    s₁.program.RefsOk ∧ s₁.built = true ∧
      ∃ sum s', solve.run s₁ = .ok sum s' ∧
        let V := (stateOf (reconcile.run (stateOf (solveStore.run s₁)).program)).store.numVars
        sum.rounds ≤ 3 * V + 1 ∧
          (3 * V + 1 ≤ s₁.program.options.maxReconcileRounds →
            ∃ p, p.RefsOk ∧ p.store.Closed p.store.env ∧ reconcile.run p = .ok false s'.program) := by
  intro fKey qKey facts s₁
  have hr₁ : Reachable (fun _ => True) {} s₁ :=
    Relation.ReflTransGen.single (Step.build (create {}) facts fun _ _ _ => trivial)
  have hb : s₁.built = true := by decide +kernel
  exact ⟨hr₁.refsOk, hb, rounds_reach_fixpoint hr₁.refsOk hb⟩

/-- Without the invariants the solve may be refused: over a store that bounds a slot it does not
register, a build succeeds, and the solve of the built session stops at that bound. -/
theorem solve_refuses_unregistered_slot :
    let s₀ : Session :=
      { create {} with program := { (create {}).program with store := (ConstraintStore.empty.addWild 1 "" none).2 } }
    let facts : List Fact :=
      [.declare { key := ⟨"a.c", 1, 1, "p"⟩, kind := .variable, ty := ⟨"int", [.pointer], none⟩ }]
    ∃ st s₁, (build facts).run s₀ = .ok st s₁ ∧ s₁.built = true ∧
      ∃ s₂, solve.run s₁ = .error (.unregisteredAtom (some 0) 1) s₂ := by
  intro s₀ facts
  have hcomp : ((errorOf ((build facts).run s₀)).isNone && (stateOf ((build facts).run s₀)).built &&
      errorOf (solve.run (stateOf ((build facts).run s₀))) == some (.unregisteredAtom (some 0) 1)) = true := by
    decide +kernel
  simp only [Bool.and_eq_true, Option.isNone_iff_eq_none, beq_iff_eq] at hcomp
  obtain ⟨⟨hok, hb⟩, hsolve⟩ := hcomp
  obtain ⟨st, hst⟩ := exists_eq_ok_of_errorOf hok
  exact ⟨st, _, hst, hb, _, eq_error_of_errorOf hsolve⟩

end Session

end CheckedPointers
