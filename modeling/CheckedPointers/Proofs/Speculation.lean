import CheckedPointers.Proofs.SessionInvariants

/-!
# Speculative retraction

A speculation asks what would become checked without the constraint forcing a slot to `wild`: on
a copy of the session's store it removes that constraint, or every constraint with its reason,
puts every slot back to `ptr`, solves once and clusters again.

Dropping constraints can only lower the least closed environment. So on a session whose clusters
are those of its closed store (no build failed while it held them), the copy keeps every
constraint but exactly the retracted ids, its environment is the least closed one above `ptr`,
every slot it leaves `wild` was `wild` before, and the slots it frees are the difference of the
two lists, as many as the two counts differ (`speculation_only_frees`). The speculation only reads
the session; a commit makes the copy and its clusters the session's.
-/

namespace CheckedPointers

open ConstraintStore

namespace ConstraintStore

variable {cs t : ConstraintStore} {id v : Nat} {c : Constraint}

/-- The ids that retracting the constraint `(id, c)` removes: `id` alone, or the id of every
constraint with the reason of `c`, in store order. -/
def retractedIds (cs : ConstraintStore) (id : Nat) (c : Constraint) : Retraction → List Nat
  | .single => [id]
  | .sameReason => (cs.entries.filter fun e => e.2.reason = c.reason).map Prod.fst

/-- The store less the constraints retracting `(id, c)` removes, removed one at a time. -/
def retract (cs : ConstraintStore) (id : Nat) (c : Constraint) (scope : Retraction) : ConstraintStore :=
  (cs.retractedIds id c scope).foldl (fun cs id => (cs.remove id).2) cs

theorem get?_eq (h : (id, c) ∈ cs.entries) : cs.get? id = some c := by
  have hsome : (cs.entries.find? fun e => e.1 == id).isSome := List.find?_isSome.2 ⟨_, h, by simp⟩
  obtain ⟨e, he⟩ := Option.isSome_iff_exists.1 hsome
  have hid : e.1 = id := by simpa using List.find?_some he
  have hmem : (id, e.2) ∈ cs.entries := hid ▸ List.mem_of_find?_eq_some he
  simp only [get?, he, Option.map_some, eq_of_mem hmem h]

theorem retractedIds_ascending (cs : ConstraintStore) (c : Constraint) (scope : Retraction) :
    (cs.retractedIds id c scope).Pairwise (· < ·) := by
  cases scope with
  | single => exact List.pairwise_singleton _ _
  | sameReason => exact cs.views.ascending.sublist (List.filter_sublist.map Prod.fst)

theorem remove_retract (h : (id, c) ∈ cs.entries) :
    (if (cs.remove id).1.isSome then [id] else []) = cs.retractedIds id c .single ∧
      (cs.remove id).2 = cs.retract id c .single := by
  refine ⟨?_, rfl⟩
  unfold remove
  split
  · next hg => rw [get?_eq h] at hg; cases hg
  · rfl

theorem removeReason_retract (id : Nat) (c : Constraint) :
    (cs.removeReason c.reason).1 = cs.retractedIds id c .sameReason ∧
      (cs.removeReason c.reason).2 = cs.retract id c .sameReason := by
  simp only [removeReason, retract, retractedIds, Bool.beq_eq_decide_eq, and_self]

@[simp] theorem retract_env (cs : ConstraintStore) (id : Nat) (c : Constraint) (scope : Retraction) :
    (cs.retract id c scope).env = cs.env := (foldl_remove _ cs).1

@[simp] theorem retract_entries (cs : ConstraintStore) (id : Nat) (c : Constraint) (scope : Retraction) :
    (cs.retract id c scope).entries = cs.entries.filter fun e => e.1 ∉ cs.retractedIds id c scope :=
  (foldl_remove _ cs).2.2.2

@[simp] theorem retract_chains (cs : ConstraintStore) (id : Nat) (c : Constraint) (scope : Retraction) :
    (cs.retract id c scope).chains = cs.chains := (foldl_remove _ cs).2.1

theorem Wf.retract_solve_ok (hw : cs.Wf) (id : Nat) (c : Constraint) (scope : Retraction) :
    ∃ r, (cs.retract id c scope).reset.solve = .ok r := by
  have hw' : (cs.retract id c scope).reset.Wf :=
    hw.reset_of_sublist (retract_env ..) (retract_chains ..) (by rw [retract_entries]; exact List.filter_sublist)
  exact ⟨_, solve_of_scoped hw'.registered⟩

theorem isWild_of_below (h : Below t.env cs.env) (hv : t.isWild v = true) : cs.isWild v = true :=
  isWild_iff_read.2 (Qualifier.eq_wild_of_wild_le (isWild_iff_read.1 hv ▸ h.2 v))

theorem wildVars_sublist (h : Below t.env cs.env) : t.wildVars.Sublist cs.wildVars := by
  unfold wildVars
  rw [h.1]
  exact List.monotone_filter_right _ fun _ hv => isWild_of_below h hv

theorem length_filter_not_mem_wildVars (h : Below t.env cs.env) :
    (cs.wildVars.filter fun w => w ∉ t.wildVars).length = cs.wildVars.length - t.wildVars.length := by
  have hsplit : cs.wildVars.length = (cs.wildVars.filter fun w => decide (w ∈ t.wildVars)).length +
      (cs.wildVars.filter fun w => !decide (w ∈ t.wildVars)).length :=
    List.length_eq_length_filter_add _
  -- the `wild` slots of the store that stay `wild` below it are all of those below
  have hin : (cs.wildVars.filter fun w => decide (w ∈ t.wildVars)) = t.wildVars := by
    unfold wildVars
    rw [h.1, List.filter_filter]
    refine List.filter_congr fun w hw => ?_
    cases hq : t.isWild w with
    | false => simp [hq]
    | true => simp [hq, List.mem_range.1 hw, isWild_of_below h hq]
  have hne : (cs.wildVars.filter fun w => !decide (w ∈ t.wildVars)) =
      cs.wildVars.filter fun w => w ∉ t.wildVars := by simp
  rw [hin, hne] at hsplit
  omega

theorem retract_below (hc : cs.Closed cs.env) {r : SolveStats × ConstraintStore}
    (hs : (cs.retract id c scope).reset.solve = .ok r) :
    r.2 = { (cs.retract id c scope).reset with env := r.2.env } ∧
      r.2.LeastClosed (Array.replicate cs.numVars .ptr) r.2.env ∧ Below r.2.env cs.env := by
  obtain ⟨heq, hl⟩ := leastClosed_solve hs
  -- the whole store's environment closes what is left of it
  have hct : (cs.retract id c scope).reset.Closed cs.env := by
    refine closed_withEnv_iff.2 (hc.mono (fun e he => ⟨e, ?_, rfl⟩) fun _ h => by simpa using h)
    rw [retract_entries] at he
    exact List.mem_of_mem_filter he
  have hb : Below (cs.retract id c scope).reset.env cs.env :=
    ⟨by simp, fun v => by rw [reset_env, read_replicate_ptr]; exact Qualifier.ptr_le _⟩
  have hstart : (cs.retract id c scope).reset.env = Array.replicate cs.numVars .ptr := by simp [numVars]
  refine ⟨heq, ?_, hl.least _ hb hct⟩
  rw [heq, ← hstart]
  exact ⟨hl.above, closed_withEnv_iff.2 hl.closed, fun p hp hpc => hl.least p hp (closed_withEnv_iff.1 hpc)⟩

end ConstraintStore

namespace Session

variable {s : Session} {before : WildGroups} {v id : Nat} {c : Constraint} {scope : Retraction}
  {r : SolveStats × ConstraintStore} {o : Options}

section Table

variable [UnifyTable]

theorem speculate_eq (hg : s.groups = some before) (hid : s.program.store.findWild? v = some id)
    (hc : (id, c) ∈ s.program.store.entries)
    (hs : (s.program.store.retract id c scope).reset.solve = .ok r) :
    s.speculate v scope = .ok
      ⟨s.program.store.retractedIds id c scope, c.reason,
        before.allWild.filter (fun w => !(WildGroups.compute s.program r.2).allWild.contains w),
        before.allWild.length, (WildGroups.compute s.program r.2).allWild.length, r.2,
        WildGroups.compute s.program r.2⟩ := by
  unfold speculate
  simp only [hg, hid, get?_eq hc, Option.map_some, Option.getD_some]
  cases scope with
  | single =>
    obtain ⟨h1, h2⟩ := remove_retract hc
    dsimp only
    rw [h1, h2, hs]
    rfl
  | sameReason =>
    obtain ⟨h1, h2⟩ := removeReason_retract id c
    dsimp only
    rw [h1, h2, hs]
    rfl

/-- What a speculation retracting the constraint `(id, c)` from a session holding the clusters
`before` is to give. -/
structure Retracts (s : Session) (before : WildGroups) (id : Nat) (c : Constraint) (scope : Retraction)
    (sp : Speculation) : Prop where
  /-- It removes `id` alone, or every constraint with the reason of `c`, by ascending id, -/
  removed : sp.removed = s.program.store.retractedIds id c scope
  ascending : sp.removed.Pairwise (· < ·)
  reason : sp.reason = c.reason
  /-- keeps every other constraint and every chain in its trial store, -/
  entries : sp.store.entries = s.program.store.entries.filter fun e => e.1 ∉ sp.removed
  chains : sp.store.chains = s.program.store.chains
  /-- which holds the least closed environment above `ptr` -/
  leastClosed : sp.store.LeastClosed (Array.replicate s.program.store.numVars .ptr) sp.store.env
  /-- with its `wild` slots clustered, -/
  trialWild : sp.groups.allWild = sp.store.wildVars
  /-- all of them `wild` before. -/
  sublist : sp.groups.allWild.Sublist before.allWild
  wildBefore : sp.wildBefore = before.allWild.length
  wildAfter : sp.wildAfter = sp.groups.allWild.length
  fewer : sp.wildAfter ≤ sp.wildBefore
  /-- The slots it frees are those `wild` before and not in the trial, as many as the counts differ. -/
  nowChecked : sp.nowChecked = before.allWild.filter fun w => w ∉ sp.groups.allWild
  nowChecked_length : sp.nowChecked.length = sp.wildBefore - sp.wildAfter
  /-- A commit installs the trial store and its clusters, and changes nothing else. -/
  commit : s.commit sp = { s with program := { s.program with store := sp.store }, groups := some sp.groups }

theorem retracts_of_solve (hc : s.program.store.Closed s.program.store.env)
    (hall : before.allWild = s.program.store.wildVars)
    (hs : (s.program.store.retract id c scope).reset.solve = .ok r) :
    s.Retracts before id c scope
      ⟨s.program.store.retractedIds id c scope, c.reason,
        before.allWild.filter (fun w => !(WildGroups.compute s.program r.2).allWild.contains w),
        before.allWild.length, (WildGroups.compute s.program r.2).allWild.length, r.2,
        WildGroups.compute s.program r.2⟩ := by
  obtain ⟨heq, hl, hb⟩ := retract_below hc hs
  have htrial := WildGroups.compute_allWild s.program r.2
  have hsub : (WildGroups.compute s.program r.2).allWild.Sublist before.allWild := by
    rw [htrial, hall]
    exact wildVars_sublist hb
  have hfree : (before.allWild.filter fun w => !(WildGroups.compute s.program r.2).allWild.contains w) =
      before.allWild.filter fun w => w ∉ (WildGroups.compute s.program r.2).allWild := by
    simp
  have hent : r.2.entries = s.program.store.entries.filter fun e => e.1 ∉ s.program.store.retractedIds id c scope := by
    rw [heq]
    exact retract_entries ..
  refine ⟨rfl, retractedIds_ascending _ c scope, rfl, hent, by rw [heq]; exact retract_chains .., hl, htrial,
    hsub, rfl, rfl,
    hsub.length_le, hfree, ?_, rfl⟩
  dsimp only
  rw [hfree, htrial, hall]
  exact length_filter_not_mem_wildVars hb

/-- On a session whose clusters are those of its store, a speculation succeeds and frees exactly the
slots `wild` before and not after, as many as the two counts differ. -/
theorem speculation_only_frees (hr : Reachable (fun s => s.groups = none) o s) (hg : s.groups = some before)
    (hid : s.program.store.findWild? v = some id) (hc : (id, c) ∈ s.program.store.entries)
    (scope : Retraction) : ∃ sp, s.speculate v scope = .ok sp ∧ s.Retracts before id c scope sp := by
  obtain ⟨hclosed, hall⟩ := hr.clustersExact before hg
  have hw := hr.wf.store
  obtain ⟨r, hs⟩ := hw.retract_solve_ok id c scope
  exact ⟨_, speculate_eq hg hid hc hs, retracts_of_solve hclosed hall hs⟩

end Table

theorem speculation_only_frees_of_macro_pointer :
    let s := stateOf (solve.run (stateOf ((build [.declare
      { key := ⟨"a.c", 1, 1, "p"⟩, kind := .variable, ty := ⟨"int", [.pointer], none⟩
        inMacro := true }]).run (create {}))))
    let c : Constraint := ⟨.geq 0 .wild, Reason.macroDecl, some ⟨"a.c", 1, 1⟩⟩
    Reachable (fun s => s.groups = none) {} s ∧ ∃ before, s.groups = some before ∧
      s.program.store.findWild? 0 = some 0 ∧ (0, c) ∈ s.program.store.entries ∧
      ∃ sp, s.speculate 0 .sameReason = .ok sp ∧ s.Retracts before 0 c .sameReason sp := by
  intro s c
  have hr : Reachable (fun s => s.groups = none) {} s := by
    -- the build starts from a fresh session, which holds no clusters
    refine (Relation.ReflTransGen.single (Step.build _ _ fun _ _ _ => ?_)).tail (Step.solve _)
    rfl
  obtain ⟨g, hg⟩ := Option.isSome_iff_exists.1 (by decide +kernel : s.groups.isSome = true)
  have hid : s.program.store.findWild? 0 = some 0 := by decide +kernel
  have hc : (0, c) ∈ s.program.store.entries := by decide +kernel
  exact ⟨hr, g, hg, hid, hc, speculation_only_frees hr hg hid hc .sameReason⟩

/-- Without the condition a speculation can leave more slots `wild` than the session held: a build
that records two declarations forced to `wild` and then fails keeps the clusters of the last solve,
with no slot `wild`, and retracting the constraint on one of the two leaves the other `wild`. -/
theorem stale_speculation_adds_wild :
    let s₁ := stateOf (solve.run (stateOf ((build [.declare
      { key := ⟨"a.c", 1, 1, "p"⟩, kind := .variable, ty := ⟨"int", [.pointer], none⟩ }]).run
        (create {}))))
    let facts : List Fact := [.declare
      { key := ⟨"a.c", 2, 1, "q"⟩, kind := .variable, ty := ⟨"int", [.pointer], none⟩
        inMacro := true },
      .declare { key := ⟨"a.c", 3, 1, "r"⟩, kind := .variable, ty := ⟨"int", [.pointer], none⟩
                 inMacro := true },
      .declare { key := ⟨"a.c", 4, 1, "g"⟩, kind := .function
                 ty := ⟨"", [], some ⟨⟨"int", [], none⟩, [], true, false⟩⟩ },
      .arithmetic (.deref (.decl ⟨"a.c", 4, 1, "g"⟩ false)) none]
    let s := stateOf ((build facts).run s₁)
    Reachable (fun _ => True) {} s ∧ (∃ e s', (build facts).run s₁ = .error e s') ∧
      ∃ before, s.groups = some before ∧ before.allWild = [] ∧ s.program.store.findWild? 1 = some 0 ∧
        ∃ sp, s.speculate 1 .single = .ok sp ∧ sp.groups.allWild = [2] ∧ sp.wildBefore < sp.wildAfter := by
  intro s₁ facts s
  have hr : Reachable (fun _ => True) {} s :=
    (((Relation.ReflTransGen.single (Step.build _ _ fun _ _ _ => trivial)).tail (Step.solve _)).tail
      (Step.build _ _ fun _ _ _ => trivial))
  have hfail : (match (build facts).run s₁ with
      | .error _ _ => true
      | .ok _ _ => false) = true := by decide +kernel
  have hbefore : s.groups.map WildGroups.allWild = some [] := by decide +kernel
  have hid : s.program.store.findWild? 1 = some 0 := by decide +kernel
  -- the trial leaves `r` at `wild`, which the held clusters do not list
  have hspec : (s.speculate 1 .single).toOption.map (fun sp => (sp.groups.allWild, sp.wildBefore, sp.wildAfter)) =
      some ([2], 0, 1) := by decide +kernel
  obtain ⟨before, hg, hall⟩ := Option.map_eq_some_iff.1 hbefore
  obtain ⟨sp, hsp, hv⟩ := Option.map_eq_some_iff.1 hspec
  simp only [Prod.mk.injEq] at hv
  refine ⟨hr, ?_, before, hg, hall, hid, sp, ?_, hv.1, by omega⟩
  · revert hfail
    cases (build facts).run s₁ with
    | error e s' => exact fun _ => ⟨e, s', rfl⟩
    | ok a s' => exact fun h => nomatch h
  · revert hsp
    cases s.speculate 1 .single with
    | error e => exact fun h => nomatch h
    | ok sp' => exact fun h => by cases h; rfl

end Session

end CheckedPointers
