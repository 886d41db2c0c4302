import CheckedPointers.Proofs.SessionSteps
import CheckedPointers.Proofs.UnionFind

/-!
# What a session's clusters say

Two facts about the clusters of every session a client can reach.

* They say nothing the environment does not: every root cause, every member of a group led by
  one, and every slot attributed to one is `wild` (`clusters_are_wild`). Clusters are only ever
  computed on a closed store that names only its own slots, and a failed build changes no slot's
  value. This holds for every lawful unification table.
* While no build fails with clusters held, the held environment is the one a solve from `ptr` of
  the current constraints gives, and the clusters list exactly its `wild` slots
  (`clusters_match_solve_from_ptr`). A build that fails part way keeps the clusters but may have
  added constraints, so the condition cannot be dropped (`failed_build_keeps_stale_solution`).
-/
namespace CheckedPointers

open ConstraintStore

theorem ConstraintStore.isWild_iff_read {cs : ConstraintStore} {v : Nat} :
    cs.isWild v = true ↔ read cs.env (.var v) = .wild :=
  Qualifier.isWild_iff

namespace Session

variable {mayFail : Session → Prop} {s s' : Session} {o : Options}

/-! ## Clusters are `wild` -/

/-- The clusters a session holds agree with its environment. -/
def ClustersSound (s : Session) : Prop :=
  ∀ g, s.groups = some g → g.Sound fun v => read s.program.store.env (.var v)

section Table

variable [UnifyTable] [UnifyTable.Lawful]

theorem Step.clustersSound (h : Step mayFail s s') (hw : s.program.Wf) (hs : s.ClustersSound) :
    s'.ClustersSound := by
  rcases h.outcome hw with ⟨-, p, -, he, rfl⟩ | ⟨p, -, -, rfl⟩ | rfl | ⟨p, q, hwp, hc, -, rfl⟩
  · -- a failed build keeps the clusters, and every slot keeps its value
    have hq : (fun v => read p.store.env (.var v)) = fun v => read s.program.store.env (.var v) :=
      funext fun v => he.store.extends.read_eq v
    intro g hg
    show g.Sound fun v => read p.store.env (.var v)
    rw [hq]
    exact hs g hg
  · exact fun _ hg => nomatch hg
  · exact hs
  · intro g hg
    cases hg
    exact WildGroups.compute_sound q (WildGroups.coversStore_of_scoped hwp.store.registered) hc

theorem Reachable.clustersSound (h : Reachable mayFail o s) : s.ClustersSound :=
  h.invariant (fun _ hg => nomatch hg) fun _ _ hr step hs => step.clustersSound hr.wf hs

/-- Whatever a client did, every slot the clusters mark as a root cause, every member of a group
led by a root cause, and every slot with a root cause is `wild` in the session's environment. -/
theorem clusters_are_wild (hr : Reachable (fun _ => True) o s) {g : WildGroups} (hg : s.groups = some g) :
    (∀ v, g.isRealWild v = true → s.program.store.isWild v = true) ∧
      (∀ l ms, g.groups.find? l = some ms → g.isRealWild l = true →
        ∀ v ∈ ms.toList, s.program.store.isWild v = true) ∧
      ∀ v r, g.rootCause? v = some r → s.program.store.isWild v = true := by
  have hs := hr.clustersSound g hg
  refine ⟨fun v hv => ?_, fun l ms hms hl v hv => ?_, fun v r hvr => ?_⟩
  · exact isWild_iff_read.2 (hs.isRealWild hv)
  · exact isWild_iff_read.2 (hs.member hms hl hv)
  · exact isWild_iff_read.2 (hs.rootCause? hvr)

end Table

theorem clusters_are_wild_of_macro_pointer :
    let s := stateOf (solve.run (stateOf ((build [.declare
      { key := ⟨"a.c", 1, 1, "p"⟩, kind := .variable, ty := ⟨"int", [.pointer], none⟩
        inMacro := true }]).run (create {}))))
    Reachable (fun _ => True) {} s ∧ ∃ g, s.groups = some g ∧
      (∀ v, g.isRealWild v = true → s.program.store.isWild v = true) ∧
      (∀ l ms, g.groups.find? l = some ms → g.isRealWild l = true →
        ∀ v ∈ ms.toList, s.program.store.isWild v = true) ∧
      ∀ v r, g.rootCause? v = some r → s.program.store.isWild v = true := by
  intro s
  have hr : Reachable (fun _ => True) {} s :=
    (Relation.ReflTransGen.single (Step.build _ _ fun _ _ _ => trivial)).tail (Step.solve _)
  obtain ⟨g, hg⟩ := Option.isSome_iff_exists.1 (by decide +kernel : s.groups.isSome = true)
  exact ⟨hr, g, hg, clusters_are_wild hr hg⟩

/-! ## Clusters match a solve from `ptr` -/

/-- Clusters held are those of a closed store, listing its `wild` slots. -/
def ClustersExact (s : Session) : Prop :=
  ∀ g, s.groups = some g → s.program.store.Closed s.program.store.env ∧ g.allWild = s.program.store.wildVars

section Table

variable [UnifyTable]

theorem Step.clustersExact (h : Step (fun s => s.groups = none) s s') (hw : s.program.Wf)
    (hs : s.ClustersExact) : s'.ClustersExact := by
  rcases h.outcome hw with ⟨hnone, p, -, -, rfl⟩ | ⟨p, -, -, rfl⟩ | rfl | ⟨p, q, -, hc, -, rfl⟩
  · -- the build failed, so no clusters were held, and none are after it
    intro g hg
    rw [show ({ s with program := p } : Session).groups = s.groups from rfl, hnone] at hg
    cases hg
  · exact fun _ hg => nomatch hg
  · exact hs
  · intro g hg
    cases hg
    exact ⟨hc, WildGroups.compute_allWild q p.store⟩

theorem Reachable.clustersExact (h : Reachable (fun s => s.groups = none) o s) : s.ClustersExact :=
  h.invariant (fun _ hg => nomatch hg) fun _ _ hr step hs => step.clustersExact hr.wf hs

/-- While no build fails with clusters held, the environment a session holds with its clusters is
the one a solve from `ptr` of its current constraints gives, whatever solves, builds, rounds and
commits came before, and the clusters list exactly its `wild` slots. -/
theorem clusters_match_solve_from_ptr (hr : Reachable (fun s => s.groups = none) o s) {g : WildGroups}
    (hg : s.groups = some g) :
    (∃ st, s.program.store.reset.solve = .ok (st, s.program.store)) ∧ g.allWild = s.program.store.wildVars := by
  obtain ⟨hc, hall⟩ := hr.clustersExact g hg
  exact ⟨hr.wf.store.solve_reset hc, hall⟩

end Table

theorem clusters_match_solve_from_ptr_of_macro_pointer :
    let s := stateOf (solve.run (stateOf ((build [.declare
      { key := ⟨"a.c", 1, 1, "p"⟩, kind := .variable, ty := ⟨"int", [.pointer], none⟩
        inMacro := true }]).run (create {}))))
    Reachable (fun s => s.groups = none) {} s ∧ ∃ g, s.groups = some g ∧
      (∃ st, s.program.store.reset.solve = .ok (st, s.program.store)) ∧
      g.allWild = s.program.store.wildVars := by
  intro s
  have hr : Reachable (fun s => s.groups = none) {} s := by
    -- the build starts from a fresh session, which holds no clusters
    refine (Relation.ReflTransGen.single (Step.build _ _ fun _ _ _ => ?_)).tail (Step.solve _)
    rfl
  obtain ⟨g, hg⟩ := Option.isSome_iff_exists.1 (by decide +kernel : s.groups.isSome = true)
  exact ⟨hr, g, hg, clusters_match_solve_from_ptr hr hg⟩

/-- Without the condition the clusters can go stale: a build that records a declaration forced to
`wild` and then fails keeps the clusters of the last solve, though a solve from `ptr` of the
constraints now held makes that slot `wild`. -/
theorem failed_build_keeps_stale_solution :
    let s₁ := stateOf (solve.run (stateOf ((build [.declare
      { key := ⟨"a.c", 1, 1, "p"⟩, kind := .variable, ty := ⟨"int", [.pointer], none⟩ }]).run
        (create {}))))
    let facts : List Fact := [.declare
      { key := ⟨"a.c", 2, 1, "q"⟩, kind := .variable, ty := ⟨"int", [.pointer], none⟩
        inMacro := true },
      .declare { key := ⟨"a.c", 3, 1, "g"⟩, kind := .function
                 ty := ⟨"", [], some ⟨⟨"int", [], none⟩, [], false, false⟩⟩ },
      .arithmetic (.deref (.decl ⟨"a.c", 3, 1, "g"⟩ false)) none]
    let s := stateOf ((build facts).run s₁)
    Reachable (fun _ => True) {} s ∧ (∃ e s', (build facts).run s₁ = .error e s') ∧
      s.groups.isSome = true ∧ ¬ ∃ st, s.program.store.reset.solve = .ok (st, s.program.store) := by
  intro s₁ facts s
  have hr : Reachable (fun _ => True) {} s :=
    (((Relation.ReflTransGen.single (Step.build _ _ fun _ _ _ => trivial)).tail (Step.solve _)).tail
      (Step.build _ _ fun _ _ _ => trivial))
  have hfail : (match (build facts).run s₁ with
      | .error _ _ => true
      | .ok _ _ => false) = true := by decide +kernel
  -- the store held has `q` at `ptr`; a solve of it from `ptr` puts `q` at `wild`
  have hcomp : s.groups.isSome = true ∧ s.program.store.env.toList = [.ptr, .ptr] ∧
      (match s.program.store.reset.solve with
        | .ok r => r.2.env.toList
        | .error _ => []) = [.ptr, .wild] := by decide +kernel
  refine ⟨hr, ?_, hcomp.1, ?_⟩
  · revert hfail
    cases (build facts).run s₁ with
    | error e s' => exact fun _ => ⟨e, s', rfl⟩
    | ok a s' => exact fun h => nomatch h
  · rintro ⟨st, h⟩
    have h2 := hcomp.2.2
    rw [h] at h2
    dsimp only at h2
    rw [hcomp.2.1] at h2
    cases h2

end Session

end CheckedPointers
