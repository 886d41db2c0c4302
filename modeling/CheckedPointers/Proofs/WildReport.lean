import Mathlib
import CheckedPointers.Proofs.Clusters

/-!
# The report of the clusters

The report lists the groups led by a root cause, worst first. On clusters that are the components
of a store (`WildGroups.Components`) it lists each such group exactly once, under the root cause of
its leader, with its indirect members: the members that are not root causes themselves, ascending.
Groups share no member, so the indirect lists share none either, and the entries are ordered by the
number of indirect members downwards, then by root slot upwards, with no ties
(`WildReport.Describes`).

On a solved store every reported slot is `wild` and no slot is reported twice, so a report
accounts for at most as many slots as the store has `wild` ones (`Components.report_weight_le`).
-/

namespace CheckedPointers

namespace ConstraintStore

theorem mem_wildVars {cs : ConstraintStore} {v : Nat} : v ∈ cs.wildVars ↔ read cs.env (.var v) = .wild := by
  simp only [wildVars, List.mem_filter, List.mem_range, isWild, assignment]
  constructor
  · rintro ⟨-, hw⟩
    exact Qualifier.isWild_iff.1 hw
  · intro hw
    refine ⟨Nat.lt_of_not_le fun hle => ?_, Qualifier.isWild_iff.2 hw⟩
    rw [read_of_size_le hle] at hw
    cases hw

end ConstraintStore

namespace WildReport

/-- A report of the clusters `g`: one entry for each group led by a root cause, under that root
cause, whose indirect members are the group's members that are no root cause, ascending; the
entries ordered by indirect members downwards, then by root slot upwards; indirect lists that share
no slot; and the counts of the `wild` slots and of the root causes. -/
structure Describes (r : WildReport) (g : WildGroups) : Prop where
  complete : ∀ l ms, g.groups.find? l = some ms → g.isRealWild l = true → ∃ gr ∈ r.groups, gr.root.var = l
  entries : ∀ gr ∈ r.groups, ∃ ms, g.groups.find? gr.root.var = some ms ∧
    g.realWild.find? gr.root.var = some gr.root ∧ gr.indirect = ms.toList.filter fun v => !g.isRealWild v
  sorted : r.groups.Pairwise fun a b => b.indirect.length < a.indirect.length ∨
    (b.indirect.length = a.indirect.length ∧ a.root.var < b.root.var)
  indirect_ascending : ∀ gr ∈ r.groups, gr.indirect.Pairwise (· < ·)
  indirect_not_real : ∀ gr ∈ r.groups, ∀ v ∈ gr.indirect, g.isRealWild v = false
  disjoint : r.groups.Pairwise fun a b => a.indirect.Disjoint b.indirect
  totalWild : r.totalWild = g.allWild.length
  realWild : r.realWild = g.realWild.size

end WildReport

namespace WildGroups

open ConstraintStore

variable {cs : ConstraintStore} {g : WildGroups} {gr : GroupReport}

/-! ## Entries of the report -/

theorem exists_of_mem_report (h : gr ∈ (report g).groups) :
    ∃ e ∈ g.groups.toList, g.realWild.find? e.1 = some gr.root ∧ gr.indirect = g.indirectMembers gr.root.var := by
  simp only [report, List.mem_mergeSort, List.mem_filterMap] at h
  obtain ⟨⟨leader, ms⟩, he, hr⟩ := h
  obtain ⟨root, hroot, rfl⟩ := Option.map_eq_some_iff.1 hr
  exact ⟨_, he, hroot, rfl⟩

theorem mem_report_of {e : Nat × SortedSet Nat} {root : WildRoot} (he : e ∈ g.groups.toList)
    (hr : g.realWild.find? e.1 = some root) : ∃ gr ∈ (report g).groups, gr.root = root := by
  obtain ⟨leader, ms⟩ := e
  simp only [report, List.mem_mergeSort, List.mem_filterMap]
  refine ⟨?w, ⟨(leader, ms), he, ?hmap⟩, ?hroot⟩
  case hmap => rw [hr, Option.map_some]
  case hroot => rfl

theorem report_sorted (g : WildGroups) : (report g).groups.Pairwise fun a b =>
    b.indirect.length < a.indirect.length ∨ (b.indirect.length = a.indirect.length ∧ a.root.var ≤ b.root.var) := by
  unfold report
  dsimp only
  refine List.Pairwise.imp ?_ (List.pairwise_mergeSort ?_ ?_ _)
  · intro a b h
    simpa using h
  · -- the order is lexicographic on the two keys, so transitive and total
    intro a b c hab hbc
    simp only [Bool.or_eq_true, Bool.and_eq_true, decide_eq_true_eq, beq_iff_eq] at hab hbc ⊢
    omega
  · intro a b
    simp only [Bool.or_eq_true, Bool.and_eq_true, decide_eq_true_eq, beq_iff_eq]
    omega

theorem report_roots_perm (g : WildGroups) :
    ((report g).groups.map GroupReport.root).Perm (g.groups.toList.filterMap fun e => g.realWild.find? e.1) := by
  unfold report
  dsimp only
  refine ((List.mergeSort_perm _ _).map _).trans (List.Perm.of_eq ?_)
  rw [List.map_filterMap]
  congr 1
  funext e
  obtain ⟨leader, ms⟩ := e
  simp [Option.map_map, Function.comp_def]

/-! ## Reports of components -/

section Clustering

variable [UnifyTable]

theorem Components.realWild_var (hc : g.Components cs) {v : Nat} {r : WildRoot}
    (h : g.realWild.find? v = some r) : r.var = v := by
  rw [hc.realWild, firstWildRoot?] at h
  obtain ⟨e, -, rfl⟩ := Option.map_eq_some_iff.1 h
  rfl

theorem Components.eq_of_mem (hc : g.Components cs) {l₁ l₂ v : Nat} {ms₁ ms₂ : SortedSet Nat}
    (h₁ : g.groups.find? l₁ = some ms₁) (h₂ : g.groups.find? l₂ = some ms₂) (hv₁ : v ∈ ms₁.toList)
    (hv₂ : v ∈ ms₂.toList) : l₁ = l₂ := by
  have c₁ := ((hc.groups _ _ h₁ v).1 hv₁).2
  have c₂ := ((hc.groups _ _ h₂ v).1 hv₂).2
  exact hc.unique _ _ _ _ h₁ h₂ (Relation.EqvGen.trans _ _ _ (Relation.EqvGen.symm _ _ c₁) c₂)

theorem Components.report_entry (hc : g.Components cs) (h : gr ∈ (report g).groups) :
    ∃ ms, g.groups.find? gr.root.var = some ms ∧ g.realWild.find? gr.root.var = some gr.root ∧
      gr.indirect = ms.toList.filter fun v => !g.isRealWild v := by
  obtain ⟨e, he, hr, hind⟩ := exists_of_mem_report h
  have hvar : gr.root.var = e.1 := hc.realWild_var hr
  have hfind : g.groups.find? e.1 = some e.2 := hc.groups_ascending.find?_eq_some_iff.2 he
  rw [hvar]
  refine ⟨e.2, hfind, hr, ?_⟩
  rw [hind, hvar, indirectMembers, hfind, Option.getD_some]

theorem Components.report_members (hc : g.Components cs) (h : gr ∈ (report g).groups) :
    ∃ ms, g.groups.find? gr.root.var = some ms ∧ g.isRealWild gr.root.var = true ∧
      ∀ v ∈ gr.root.var :: gr.indirect, v ∈ ms.toList := by
  obtain ⟨ms, hfind, hr, hind⟩ := hc.report_entry h
  refine ⟨ms, hfind, Option.isSome_iff_exists.2 ⟨_, hr⟩, fun v hv => ?_⟩
  rcases List.mem_cons.1 hv with rfl | hv
  · exact hc.leader_mem _ _ hfind
  · rw [hind] at hv
    exact (List.mem_filter.1 hv).1

theorem Components.report_roots_nodup (hc : g.Components cs) :
    ((report g).groups.map fun gr => gr.root.var).Nodup := by
  have hperm := (report_roots_perm g).map WildRoot.var
  simp only [List.map_map, Function.comp_def] at hperm
  refine hperm.nodup_iff.2 (List.Pairwise.imp Nat.ne_of_lt ?_)
  -- the groups ascend by leader, and each root cause sits at its leader
  rw [List.pairwise_map]
  have hasc : g.groups.toList.Pairwise fun a b => compare a.1 b.1 = .lt := hc.groups_ascending
  refine List.Pairwise.filterMap _ (fun a a' hlt r hr r' hr' => ?_) hasc
  rw [hc.realWild_var hr, hc.realWild_var hr']
  exact Nat.compare_eq_lt.1 hlt

theorem Components.report_pairwise_disjoint (hc : g.Components cs) :
    (report g).groups.Pairwise fun a b => (a.root.var :: a.indirect).Disjoint (b.root.var :: b.indirect) := by
  refine (List.pairwise_map.1 hc.report_roots_nodup).imp_of_mem fun ha hb hne v hva hvb => hne ?_
  obtain ⟨msa, hfa, -, hma⟩ := hc.report_members ha
  obtain ⟨msb, hfb, -, hmb⟩ := hc.report_members hb
  exact hc.eq_of_mem hfa hfb (hma v hva) (hmb v hvb)

theorem Components.describes (hc : g.Components cs) : (report g).Describes g where
  complete l ms hl hreal := by
    obtain ⟨r, hr⟩ := Option.isSome_iff_exists.1 hreal
    obtain ⟨gr, hgr, hroot⟩ := mem_report_of (hc.groups_ascending.find?_eq_some_iff.1 hl) hr
    exact ⟨gr, hgr, hroot ▸ hc.realWild_var hr⟩
  entries _ h := hc.report_entry h
  sorted := by
    -- sorted with ties broken by root slot, and no two root slots equal
    refine ((report_sorted g).and (List.pairwise_map.1 hc.report_roots_nodup)).imp ?_
    rintro a b ⟨h, hne⟩
    omega
  indirect_ascending gr h := by
    obtain ⟨ms, hfind, -, hind⟩ := hc.report_entry h
    rw [hind]
    exact ((hc.members_ascending _ _ hfind).filter _).imp Nat.compare_eq_lt.1
  indirect_not_real gr h v hv := by
    obtain ⟨ms, -, -, hind⟩ := hc.report_entry h
    rw [hind] at hv
    simpa using (List.mem_filter.1 hv).2
  disjoint := hc.report_pairwise_disjoint.imp fun h v ha hb =>
    h (List.mem_cons_of_mem _ ha) (List.mem_cons_of_mem _ hb)
  totalWild := rfl
  realWild := rfl

/-- On clusters agreeing with a store's values, the entries of the report with their root slots
account for at most the store's `wild` slots: each such slot is `wild`, and none is counted twice. -/
theorem Components.report_weight_le (hc : g.Components cs) (hs : g.Sound fun v => read cs.env (.var v))
    (hall : g.allWild = cs.wildVars) :
    ((report g).groups.map fun gr => gr.indirect.length + 1).sum ≤ (report g).totalWild := by
  let L := (report g).groups.flatMap fun gr => gr.root.var :: gr.indirect
  have hnd : L.Nodup := by
    refine List.nodup_flatMap.2 ⟨fun gr h => ?_, hc.report_pairwise_disjoint⟩
    obtain ⟨-, -, hreal, -⟩ := hc.report_members h
    have hnot := (hc.describes).indirect_not_real gr h
    refine List.nodup_cons.2 ⟨fun hin => ?_, ((hc.describes).indirect_ascending gr h).imp Nat.ne_of_lt⟩
    rw [hnot _ hin] at hreal
    cases hreal
  have hsub : L ⊆ cs.wildVars := by
    intro v hv
    obtain ⟨gr, h, hv⟩ := List.mem_flatMap.1 hv
    obtain ⟨ms, hfind, hreal, hmem⟩ := hc.report_members h
    exact mem_wildVars.2 (hs.member hfind hreal (hmem v hv))
  calc ((report g).groups.map fun gr => gr.indirect.length + 1).sum
      = L.length := by simp [L, List.length_flatMap]
    _ ≤ cs.wildVars.length := (hnd.subperm hsub).length_le
    _ = (report g).totalWild := by rw [(hc.describes).totalWild, hall]

/-- The report of the clusters of a store whose constraints name only its own slots describes them,
and on a solved store its entries with their root slots count at most the store's `wild` slots. -/
theorem report_describes_clusters [UnifyTable.Lawful] (p : Program) (hcov : coversStore cs = true) :
    (report (compute p cs)).Describes (compute p cs) ∧ (cs.Closed cs.env →
      ((report (compute p cs)).groups.map fun gr => gr.indirect.length + 1).sum ≤
        (report (compute p cs)).totalWild) := by
  have hc := compute_components p hcov
  exact ⟨hc.describes, fun hclosed => hc.report_weight_le (compute_sound p hcov hclosed) (compute_allWild p cs)⟩

end Clustering

theorem report_describes_clusters_of_chain :
    let cs : ConstraintStore := { ((((ConstraintStore.empty.add (.eq (.var 0) (.var 1)) "" none).2.add
      (.geq 1 .wild) "macro" none).2.add (.eq (.var 2) (.const .wild)) "" none).2.add
      (.eq (.var 3) (.var 3)) "" none).2 with env := #[.wild, .wild, .wild, .ptr] }
    coversStore cs = true ∧ ((report (compute default cs)).Describes (compute default cs) ∧ (cs.Closed cs.env →
      ((report (compute default cs)).groups.map fun gr => gr.indirect.length + 1).sum ≤
        (report (compute default cs)).totalWild)) :=
  ⟨by decide, report_describes_clusters default (by decide)⟩

end WildGroups

end CheckedPointers
