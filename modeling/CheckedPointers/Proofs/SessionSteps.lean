import CheckedPointers.Session
import CheckedPointers.Proofs.ReconcileSteps
import CheckedPointers.Proofs.WildGroups

/-!
# Sessions step by step

A client changes a session by building, solving and committing speculations; every other request
only reads it, and so does a speculation that is not committed. A build or a solve that fails
keeps what it changed before failing. `Session.Step` is one such change, taken whatever its
outcome, where a commit installs a speculation of the session as it is, and `Session.Reachable`
every session reached by such changes from a fresh one. A client may also keep a speculation and
commit it after later builds (`Session.Client`); the runs of `Session.Step` are the client runs in
which every commit is of a speculation taken just before (`Session.Reachable.client`).

A build keeps the program's invariants and only grows arena and store, whether it succeeds or not
(`Session.build_run`). Solving a built session succeeds and leaves a closed store with the
clusters of that very store; a session that was not built is left as it was
(`Session.solve_run`). A speculation solves, from `ptr`, a store that keeps every constraint of
the session but those it retracts, which never include one recorded for an array level
(`Session.speculate_ok`). `Session.Step.outcome` says once what a change can do; the invariants
of reachable sessions are derived from it.
-/
namespace CheckedPointers

open ConstraintStore

namespace ConstraintStore

variable {cs : ConstraintStore} {id v : Nat} {c c' : Constraint}

theorem eq_of_mem (h : (id, c) ∈ cs.entries) (h' : (id, c') ∈ cs.entries) : c = c' :=
  (Prod.ext_iff.1 (cs.views.eq_of_id h h' rfl)).2

theorem mem_of_idOf? {r : Relation} (h : cs.idOf? r = some id) : ∃ c, (id, c) ∈ cs.entries ∧ c.relation = r := by
  rw [idOf?_eq] at h
  obtain ⟨e, he, rfl⟩ := Option.map_eq_some_iff.1 h
  exact ⟨e.2, List.mem_of_find?_eq_some he, by simpa using List.find?_some he⟩

theorem mem_of_get? (h : cs.get? id = some c) : (id, c) ∈ cs.entries := by
  obtain ⟨e, he, rfl⟩ := Option.map_eq_some_iff.1 h
  have hid : e.1 = id := by simpa using List.find?_some he
  rw [← hid]
  exact List.mem_of_find?_eq_some he

theorem mem_of_findWild? (h : cs.findWild? v = some id) :
    ∃ c, (id, c) ∈ cs.entries ∧ c.relation.directWild? = some v := by
  unfold findWild? at h
  cases hgeq : cs.idOf? (.geq v .wild) with
  | some id' =>
    rw [hgeq, Option.some_or] at h
    cases h
    obtain ⟨c, hc, hr⟩ := mem_of_idOf? hgeq
    exact ⟨c, hc, by rw [hr]; rfl⟩
  | none =>
    rw [hgeq, Option.none_or] at h
    obtain ⟨c, hc, hr⟩ := mem_of_idOf? h
    exact ⟨c, hc, by rw [hr]; rfl⟩

theorem Wf.findWild?_reason (hw : cs.Wf) (h : cs.findWild? v = some id) (hc : (id, c) ∈ cs.entries) :
    c.reason ≠ Reason.arrayDecl := by
  obtain ⟨c', hc', hr⟩ := mem_of_findWild? h
  rw [eq_of_mem hc hc']
  intro harr
  -- a constraint recorded for an array level bounds a slot by `arr`, which forces nothing
  obtain ⟨w, hw'⟩ := hw.arrayReasons _ hc' harr
  rw [hw'] at hr
  cases hr

theorem Wf.retract (hw : cs.Wf) (hid : cs.findWild? v = some id) {t : ConstraintStore}
    (ht : t = (cs.remove id).2 ∨ t = (cs.removeReason ((cs.get? id).map Constraint.reason |>.getD "")).2) :
    t.env = cs.env ∧ t.chains = cs.chains ∧ t.nextId = cs.nextId ∧ t.entries.Sublist cs.entries ∧
      ∀ e ∈ cs.entries, e.2.reason = Reason.arrayDecl → e ∈ t.entries := by
  rcases ht with rfl | rfl
  · refine ⟨remove_env _ _, remove_chains _ _, remove_nextId _ _, ?_, fun e he harr => ?_⟩ <;>
      rw [remove_entries]
    · exact List.filter_sublist
    · refine List.mem_filter.2 ⟨he, ?_⟩
      -- the retracted id names the constraint forcing `wild`, not this one
      have hne : e.1 ≠ id := fun heq => hw.findWild?_reason hid (heq ▸ he) harr
      simpa using hne
  · refine ⟨removeReason_env _ _, removeReason_chains _ _, removeReason_nextId _ _, ?_, fun e he harr => ?_⟩ <;>
      rw [removeReason_entries]
    · exact List.filter_sublist
    · refine List.mem_filter.2 ⟨he, ?_⟩
      have hne : Reason.arrayDecl ≠ ((cs.get? id).map Constraint.reason).getD "" := by
        cases hg : cs.get? id with
        | none => simp [Reason.arrayDecl]
        | some c => exact fun h => hw.findWild?_reason hid (mem_of_get? hg) h.symm
      simpa [harr] using hne

theorem Wf.retract_solve (hw : cs.Wf) (hid : cs.findWild? v = some id) {t : ConstraintStore}
    (ht : t = (cs.remove id).2 ∨ t = (cs.removeReason ((cs.get? id).map Constraint.reason |>.getD "")).2)
    {r : SolveStats × ConstraintStore} (hs : t.reset.solve = .ok r) :
    r.2.Wf ∧ r.2.Closed r.2.env ∧ r.2.numVars = cs.numVars ∧ r.2.chains = cs.chains ∧
      ∀ e ∈ cs.entries, e.2.reason = Reason.arrayDecl → e ∈ r.2.entries := by
  obtain ⟨henv, hch, -, hsub, harr⟩ := hw.retract hid ht
  obtain ⟨heq, hw', hc, hb⟩ := (hw.reset_of_sublist henv hch hsub).solve hs
  have hn : r.2.numVars = cs.numVars := by
    rw [numVars, ← hb.1, reset_env, Array.size_replicate, henv]
    rfl
  have hch' : r.2.chains = cs.chains := by rw [heq, reset_chains, hch]
  have hent : r.2.entries = t.entries := by rw [heq, reset_entries]
  exact ⟨hw', hc, hn, hch', fun e he h => hent ▸ harr e he h⟩

theorem wf_empty : ConstraintStore.empty.Wf where
  registered := ⟨(fun _ h => nomatch h), fun _ h => nomatch h⟩
  arrayReasons _ h := nomatch h
  sound _ _ v := by
    rw [read_of_size_le (Nat.zero_le v)]
    exact Qualifier.ptr_le _

end ConstraintStore

namespace Program

variable {p : Program}

theorem Wf.withStoreOf (hw : p.Wf) {cs : ConstraintStore} (hcs : cs.Wf)
    (hn : cs.numVars = p.store.numVars) (hch : cs.chains = p.store.chains) :
    ({ p with store := cs } : Program).Wf where
  store := hcs
  slots := hn ▸ hw.slots
  recorded e he id hid := hch ▸ hw.recorded e he id hid
  synthesized e he := hch ▸ hw.synthesized e he
  functions := hw.functions

theorem Wf.withSolved (hw : p.Wf) {r : SolveStats × ConstraintStore} (h : p.store.solve = .ok r) :
    ({ p with store := r.2 } : Program).Wf ∧ r.2.Closed r.2.env ∧ r.2.entries = p.store.entries := by
  obtain ⟨heq, hw', hc, hb⟩ := hw.store.solve h
  have hch : r.2.chains = p.store.chains := by rw [heq]
  have hent : r.2.entries = p.store.entries := by rw [heq]
  exact ⟨hw.withStoreOf hw' hb.1.symm hch, hc, hent⟩

end Program

namespace Session

variable {α : Type} {s : Session}

theorem run_onProgram (m : ProgramM α) (s : Session) :
    (onProgram m).run s = match m.run s.program with
      | .ok a p => .ok a { s with program := p }
      | .error e p => .error e { s with program := p } := by
  unfold onProgram
  rw [run_bind, run_get]
  dsimp only
  cases m.run s.program <;> rfl

/-- A build keeps the program's invariants and only grows it, and marks the session built with no
clusters exactly when it succeeds. -/
theorem build_run (hw : s.program.Wf) (facts : List Fact) :
    ∃ p, p.Wf ∧ s.program.Evolves p ∧
      ((∃ e, (build facts).run s = .error e { s with program := p }) ∨
        ∃ st, (build facts).run s = .ok st { s with program := p, built := true, groups := none }) := by
  unfold build
  rw [run_bind, run_onProgram]
  have h1 := Program.keeps_addFacts facts s.program hw
  cases hr1 : (Program.addFacts facts).run s.program with
  | error e p1 =>
    rw [Program.KeepsAt, hr1] at h1
    exact ⟨p1, h1.1, h1.2, .inl ⟨e, rfl⟩⟩
  | ok u p1 =>
    rw [Program.KeepsAt, hr1] at h1
    dsimp only
    rw [run_bind, run_onProgram]
    have h2 := Program.keeps_link p1 h1.1
    cases hr2 : Program.link.run p1 with
    | error e p2 =>
      rw [Program.KeepsAt, hr2] at h2
      exact ⟨p2, h2.1, h1.2.trans h2.2, .inl ⟨e, rfl⟩⟩
    | ok st p2 =>
      rw [Program.KeepsAt, hr2] at h2
      exact ⟨p2, h2.1, h1.2.trans h2.2, .inr ⟨st, rfl⟩⟩

theorem solveStore_run (hw : s.program.Wf) :
    ∃ n p, solveStore.run s = .ok n { s with program := p } ∧ p.Wf ∧ p.store.Closed p.store.env ∧
      p.store.entries = s.program.store.entries := by
  unfold solveStore
  rw [run_bind, run_get]
  dsimp only
  cases h : s.program.store.solve with
  | error e =>
    rw [solve_of_scoped hw.store.registered] at h
    cases h
  | ok r =>
    obtain ⟨hw', hc, hent⟩ := hw.withSolved h
    exact ⟨r.1.passes, { s.program with store := r.2 }, rfl, hw', hc, hent⟩

theorem reconcileRounds_run (n : Nat) : ∀ (d ps : Nat) (s : Session), s.program.Wf →
    s.program.store.Closed s.program.store.env →
    ∃ r p, (reconcileRounds n d ps).run s = .ok r { s with program := p } ∧ p.Wf ∧
      p.store.Closed p.store.env ∧ s.program.store.entries <+: p.store.entries := by
  induction n with
  | zero => exact fun d ps s hw hc => ⟨(d, ps), s.program, rfl, hw, hc, List.prefix_refl _⟩
  | succ n ih =>
    intro d ps s hw hc
    unfold reconcileRounds
    rw [run_bind, run_onProgram]
    obtain ⟨b, p1, hr, hw1, he1, hsize⟩ := Program.reconcile_run hw
    rw [hr]
    dsimp only
    cases b with
    | false =>
      have hc1 : p1.store.Closed p1.store.env := he1.store.closed hc (Nat.le_of_eq (hsize rfl))
      exact ⟨(d + 1, ps), p1, rfl, hw1, hc1, he1.store.extends.entries⟩
    | true =>
      obtain ⟨more, p2, hr2, hw2, hc2, hent2⟩ := solveStore_run (s := { s with program := p1 }) hw1
      rw [if_neg (by decide), run_bind, hr2]
      obtain ⟨r, p3, hr3, hw3, hc3, hpre3⟩ := ih (d + 1) (ps + more) { s with program := p2 } hw2 hc2
      have hpre : p1.store.entries <+: p3.store.entries := by
        have h2 : p2.store.entries = p1.store.entries := hent2
        rw [← h2]
        exact hpre3
      exact ⟨r, p3, hr3, hw3, hc3, he1.store.extends.entries.trans hpre⟩

theorem wf_create (o : Options) : (create o).program.Wf where
  store := ConstraintStore.wf_empty
  slots _ _ h := nomatch h
  recorded _ h := nomatch h
  synthesized _ h := nomatch h
  functions _ h := nomatch h

section Table

variable [UnifyTable]

/-- Solving a session: one that was not built is refused and left as it was; a built one is solved,
reconciled and clustered, with nothing that can fail on the way. -/
theorem solve_run (hw : s.program.Wf) :
    (s.built = false ∧ solve.run s = .error .notBuilt s) ∨
      (s.built = true ∧ ∃ r p,
        solve.run s = .ok r { s with program := p, groups := some (WildGroups.compute p p.store) } ∧
        p.Wf ∧ p.store.Closed p.store.env ∧ s.program.store.entries <+: p.store.entries) := by
  obtain ⟨prog, built, groups⟩ := s
  unfold solve
  rw [run_bind, run_get]
  dsimp only
  cases built with
  | false =>
    left
    exact ⟨rfl, rfl⟩
  | true =>
    right
    refine ⟨rfl, ?_⟩
    rw [if_neg (by decide), run_bind]
    obtain ⟨n, p1, hr1, hw1, hc1, hent1⟩ := solveStore_run hw
    rw [hr1]
    dsimp only
    rw [run_bind, run_get]
    dsimp only
    rw [run_bind]
    obtain ⟨r, p2, hr2, hw2, hc2, hpre2⟩ :=
      reconcileRounds_run p1.options.maxReconcileRounds 0 n ⟨p1, true, groups⟩ hw1 hc1
    rw [hr2]
    refine ⟨_, p2, rfl, hw2, hc2, ?_⟩
    have h1 : p1.store.entries = prog.store.entries := hent1
    rw [← h1]
    exact hpre2

/-- A speculation solves, from `ptr`, the session's store less what it retracts: a well-formed,
closed store over the same slots and chains that keeps every constraint recorded for an array
level, and clusters that very store. -/
theorem speculate_ok (hw : s.program.store.Wf) {v : Nat} {scope : Retraction} {sp : Speculation}
    (h : s.speculate v scope = .ok sp) :
    sp.store.Wf ∧ sp.store.Closed sp.store.env ∧ sp.store.numVars = s.program.store.numVars ∧
      sp.store.chains = s.program.store.chains ∧
      (∀ e ∈ s.program.store.entries, e.2.reason = Reason.arrayDecl → e ∈ sp.store.entries) ∧
      sp.groups = WildGroups.compute s.program sp.store := by
  unfold speculate at h
  split at h
  · dsimp only at h
    split at h
    · next id hid =>
      -- the store retracted for either scope, solved from `ptr`
      cases scope with
      | single =>
        dsimp only at h
        cases hs : (s.program.store.remove id).2.reset.solve with
        | error e => rw [hs] at h; cases h
        | ok r =>
          rw [hs] at h
          cases h
          obtain ⟨h1, h2, h3, h4, h5⟩ := hw.retract_solve hid (.inl rfl) hs
          exact ⟨h1, h2, h3, h4, h5, rfl⟩
      | sameReason =>
        dsimp only at h
        cases hs : (s.program.store.removeReason
            ((s.program.store.get? id).map Constraint.reason |>.getD "")).2.reset.solve with
        | error e => rw [hs] at h; cases h
        | ok r =>
          rw [hs] at h
          cases h
          obtain ⟨h1, h2, h3, h4, h5⟩ := hw.retract_solve hid (.inr rfl) hs
          exact ⟨h1, h2, h3, h4, h5, rfl⟩
    · cases h
  · cases h

/-! ## Runs of a session -/

/-- One change a client makes to a session, taken whatever its outcome: a build of any facts, a
solve, or the commit of a speculation that succeeded on the session as it is. Every other request
only reads the session. A build may fail only from a session that `mayFail` allows. -/
inductive Step (mayFail : Session → Prop) : Session → Session → Prop
  | build (s : Session) (facts : List Fact)
      (h : ∀ e s', (Session.build facts).run s = .error e s' → mayFail s) :
      Step mayFail s (stateOf ((Session.build facts).run s))
  | solve (s : Session) : Step mayFail s (stateOf (Session.solve.run s))
  | commit (s : Session) (v : Nat) (scope : Retraction) (sp : Speculation)
      (h : s.speculate v scope = .ok sp) : Step mayFail s (s.commit sp)

/-- The sessions a client reaches from a fresh one with options `o`. -/
def Reachable (mayFail : Session → Prop) (o : Options) (s : Session) : Prop :=
  Relation.ReflTransGen (Step mayFail) (create o) s

variable {mayFail : Session → Prop} {s' : Session}

/-- What one change does to a session with a well-formed program. -/
theorem Step.outcome (h : Step mayFail s s') (hw : s.program.Wf) :
    (mayFail s ∧ ∃ p, p.Wf ∧ s.program.Evolves p ∧ s' = { s with program := p }) ∨
      (∃ p, p.Wf ∧ s.program.Evolves p ∧ s' = { s with program := p, built := true, groups := none }) ∨
      s' = s ∨
      ∃ p q, p.Wf ∧ p.store.Closed p.store.env ∧
        (∀ e ∈ s.program.store.entries, e.2.reason = Reason.arrayDecl → e ∈ p.store.entries) ∧
        s' = { s with program := p, groups := some (WildGroups.compute q p.store) } := by
  cases h with
  | build facts hfail =>
    obtain ⟨p, hwp, he, ⟨e, hr⟩ | ⟨st, hr⟩⟩ := build_run hw facts
    · exact .inl ⟨hfail e _ hr, p, hwp, he, by rw [hr, stateOf_error]⟩
    · exact .inr (.inl ⟨p, hwp, he, by rw [hr, stateOf_ok]⟩)
  | solve =>
    rcases solve_run hw with ⟨-, hr⟩ | ⟨-, r, p, hr, hwp, hc, hpre⟩
    · exact .inr (.inr (.inl (by rw [hr, stateOf_error])))
    · exact .inr (.inr (.inr ⟨p, p, hwp, hc, fun e he _ => hpre.subset he, by rw [hr, stateOf_ok]⟩))
  | commit v scope sp hsp =>
    obtain ⟨h1, hc, h3, h4, harr, hg⟩ := speculate_ok hw.store hsp
    refine .inr (.inr (.inr ⟨{ s.program with store := sp.store }, s.program, hw.withStoreOf h1 h3 h4, hc,
      harr, ?_⟩))
    rw [← hg]
    rfl

theorem Step.wf (h : Step mayFail s s') (hw : s.program.Wf) : s'.program.Wf := by
  rcases h.outcome hw with ⟨-, p, hwp, -, rfl⟩ | ⟨p, hwp, -, rfl⟩ | rfl | ⟨p, q, hwp, -, -, rfl⟩
  · exact hwp
  · exact hwp
  · exact hw
  · exact hwp

theorem Reachable.invariant {o : Options} {I : Session → Prop} (h : Reachable mayFail o s)
    (h₀ : I (create o)) (hstep : ∀ s s', Reachable mayFail o s → Step mayFail s s' → I s → I s') : I s := by
  induction h with
  | refl => exact h₀
  | tail hr step ih => exact hstep _ _ hr step ih

theorem Reachable.wf {o : Options} (h : Reachable mayFail o s) : s.program.Wf :=
  h.invariant (wf_create o) fun _ _ _ step hw => step.wf hw

end Table

/-! ## Clients that keep speculations -/

/-- A client of a session: the session, and the speculations the client took and kept. A
speculation is a value the client owns and may copy, so it may commit any of them, any number of
times, also after builds and solves that changed the session since. -/
structure Client where
  session : Session
  held : List Speculation

section Table

variable [UnifyTable]

/-- One call a client makes: a build, a solve, a speculation it keeps, or the commit of one it
holds. -/
inductive ClientStep : Client → Client → Prop
  | build (c : Client) (facts : List Fact) :
      ClientStep c ⟨stateOf ((Session.build facts).run c.session), c.held⟩
  | solve (c : Client) : ClientStep c ⟨stateOf (Session.solve.run c.session), c.held⟩
  | speculate (c : Client) (v : Nat) (scope : Retraction) (sp : Speculation)
      (h : c.session.speculate v scope = .ok sp) : ClientStep c ⟨c.session, sp :: c.held⟩
  | commit (c : Client) (sp : Speculation) (h : sp ∈ c.held) : ClientStep c ⟨c.session.commit sp, c.held⟩

/-- The clients reached from a fresh session with options `o`, holding no speculation. -/
def ClientReachable (o : Options) (c : Client) : Prop :=
  Relation.ReflTransGen ClientStep ⟨create o, []⟩ c

section Calls

variable {o : Options} {held : List Speculation} {sp : Speculation}

theorem clientReachable_create (o : Options) : ClientReachable o ⟨create o, []⟩ := .refl

theorem ClientReachable.build (h : ClientReachable o ⟨s, held⟩) (facts : List Fact) :
    ClientReachable o ⟨stateOf ((Session.build facts).run s), held⟩ :=
  h.tail (.build _ facts)

theorem ClientReachable.solve (h : ClientReachable o ⟨s, held⟩) :
    ClientReachable o ⟨stateOf (Session.solve.run s), held⟩ :=
  h.tail (.solve _)

theorem ClientReachable.keep {v : Nat} {scope : Retraction} (h : ClientReachable o ⟨s, held⟩)
    (hsp : s.speculate v scope = .ok sp) : ClientReachable o ⟨s, sp :: held⟩ :=
  h.tail (.speculate _ v scope sp hsp)

theorem ClientReachable.commit (h : ClientReachable o ⟨s, held⟩) (hsp : sp ∈ held) :
    ClientReachable o ⟨s.commit sp, held⟩ :=
  h.tail (.commit _ sp hsp)

end Calls

/-- Every session reached by changes is reached by a client: a commit of a speculation of the
session as it is, is that speculation kept and committed at once. -/
theorem Reachable.client {o : Options} (h : Reachable mayFail o s) : ∃ held, ClientReachable o ⟨s, held⟩ := by
  induction h with
  | refl => exact ⟨[], .refl⟩
  | tail _ step ih =>
    obtain ⟨held, hc⟩ := ih
    cases step with
    | build facts _ => exact ⟨held, hc.build facts⟩
    | solve => exact ⟨held, hc.solve⟩
    | commit v scope sp hsp => exact ⟨sp :: held, (hc.keep hsp).commit List.mem_cons_self⟩

end Table

end Session

end CheckedPointers
