import CheckedPointers.WildGroups
import CheckedPointers.Proofs.LeastFixpoint
import CheckedPointers.Proofs.Sorted
import CheckedPointers.Proofs.UnifyTable

/-!
# Clusters of `wild` slots agree with the environment

Clustering reads a store's constraints and nothing of its environment. When that environment
closes the store, the clusters it builds say only what the environment says: slots joined by an
equality between slots have one value, and a slot forced to `wild` directly is `wild`.

Labelling each slot with its value, the table is built by unions of slots of one label
(`UnifyTable.Built`), so in a lawful table every slot has the label of the key it finds. The
clusters are then `WildGroups.Sound`: a slot has its leader's value, a group's members have the
value of the group's key, and a root cause is `wild`. Then every root cause, every member of a
group led by one, and every slot with a root cause is `wild`. This needs the store's constraints to
name only its own slots (`coversStore`), as every store a solve accepts does.
-/

namespace CheckedPointers

open ConstraintStore

namespace Relation

theorem wild_of_directWild? {r : Relation} {v : Nat} {env : Array Qualifier} (h : r.directWild? = some v)
    (hr : r.Holds env) : read env (.var v) = .wild := by
  unfold directWild? at h
  split at h
  · cases h
    exact Qualifier.eq_wild_of_wild_le hr
  · cases h
    exact Qualifier.eq_wild_of_wild_le hr
  · cases h

theorem mem_vars_of_directWild? {r : Relation} {v : Nat} (h : r.directWild? = some v) : v ∈ r.vars := by
  unfold directWild? at h
  split at h <;> cases h <;> simp [vars, Atom.asVar?]

end Relation

namespace WildGroups

variable {q : Nat → Qualifier}

/-- Each slot of a table has the value of the slot it maps to. -/
def LeadersAgree (q : Nat → Qualifier) (m : SortedMap Nat Nat) : Prop := ∀ e ∈ m.toList, q e.1 = q e.2

/-- Each member of a group has the value of the group's key. -/
def GroupsAgree (q : Nat → Qualifier) (m : SortedMap Nat (SortedSet Nat)) : Prop :=
  ∀ e ∈ m.toList, ∀ w ∈ e.2.toList, q w = q e.1

/-- Each recorded root cause is `wild`. -/
def RootsWild (q : Nat → Qualifier) (m : SortedMap Nat WildRoot) : Prop := ∀ e ∈ m.toList, q e.1 = .wild

/-- What the walk over the constraints of a store with `n` slots keeps: the table is built by unions
of slots of one value, the slots recorded so far are slots of the store, and the root causes so
far are `wild`. -/
def ScanAgrees [UnifyTable] (q : Nat → Qualifier) (n : Nat)
    (acc : UnifyTable.Table × SortedSet Nat × SortedMap Nat WildRoot) : Prop :=
  UnifyTable.Built n (fun a b => q a = q b) acc.1 ∧ (∀ v ∈ acc.2.1.toList, v < n) ∧ RootsWild q acc.2.2

/-- What choosing leaders keeps: leaders and groups so far agree with the valuation. -/
def LeadAgrees (q : Nat → Qualifier) (acc : SortedMap Nat Nat × SortedMap Nat (SortedSet Nat)) : Prop :=
  LeadersAgree q acc.1 ∧ GroupsAgree q acc.2

/-- Clusters that agree with a valuation of the slots. -/
structure Sound (g : WildGroups) (q : Nat → Qualifier) : Prop where
  leaders : LeadersAgree q g.leaders
  groups : GroupsAgree q g.groups
  realWild : RootsWild q g.realWild

theorem LeadersAgree.insert {m : SortedMap Nat Nat} (h : LeadersAgree q m) {v l : Nat}
    (hv : q v = q l) : LeadersAgree q (m.insert v l) := by
  intro e he
  rcases SortedMap.mem_insert_key he with he | ⟨hk | hk, rfl⟩
  · exact h e he
  · rw [hk, hv]
  · rw [← Nat.compare_eq_eq.1 hk, hv]

theorem GroupsAgree.insert {m : SortedMap Nat (SortedSet Nat)} (h : GroupsAgree q m) {k : Nat}
    {ms : SortedSet Nat} (hms : ∀ w ∈ ms.toList, q w = q k) : GroupsAgree q (m.insert k ms) := by
  intro e he w hw
  rcases SortedMap.mem_insert_key he with he | ⟨hk | hk, he2⟩
  · exact h e he w hw
  · rw [hk]
    exact hms w (he2 ▸ hw)
  · rw [← Nat.compare_eq_eq.1 hk]
    exact hms w (he2 ▸ hw)

theorem GroupsAgree.alter_insert {m : SortedMap Nat (SortedSet Nat)} (h : GroupsAgree q m) {k v : Nat}
    (hv : q v = q k) : GroupsAgree q (m.alter k fun s => (s.getD SortedSet.empty).insert v) := by
  intro e he w hw
  rcases SortedMap.mem_alter he with he | ⟨hk, he2⟩ | ⟨old, hold, hk, he2⟩
  · exact h e he w hw
  · rw [he2] at hw
    rcases SortedSet.mem_insert hw with rfl | hw
    · rw [hk, hv]
    · simp at hw
  · rw [he2] at hw
    rcases SortedSet.mem_insert hw with rfl | hw
    · rw [← Nat.compare_eq_eq.1 hk, hv]
    · exact h _ hold w hw

theorem RootsWild.insertIfAbsent {m : SortedMap Nat WildRoot} (h : RootsWild q m) {v : Nat}
    (hv : q v = .wild) (r : WildRoot) : RootsWild q (m.insertIfAbsent v r) := by
  intro e he
  rcases SortedMap.mem_insertIfAbsent he with he | rfl
  · exact h e he
  · exact hv

variable {g : WildGroups}

theorem Sound.isRealWild (h : g.Sound q) {v : Nat} (hv : g.isRealWild v = true) : q v = .wild := by
  obtain ⟨r, hr⟩ := Option.isSome_iff_exists.1 hv
  obtain ⟨k, hk, hc⟩ := SortedMap.mem_of_find? hr
  rw [Nat.compare_eq_eq.1 hc]
  exact h.realWild _ hk

theorem Sound.member (h : g.Sound q) {l : Nat} {ms : SortedSet Nat} (hg : g.groups.find? l = some ms)
    (hl : g.isRealWild l = true) {w : Nat} (hw : w ∈ ms.toList) : q w = .wild := by
  obtain ⟨k, hk, hc⟩ := SortedMap.mem_of_find? hg
  rw [h.groups _ hk w hw, ← Nat.compare_eq_eq.1 hc]
  exact h.isRealWild hl

theorem Sound.rootCause? (h : g.Sound q) {v : Nat} {r : WildRoot} (hr : g.rootCause? v = some r) :
    q v = .wild := by
  obtain ⟨l, hl, hr⟩ := Option.bind_eq_some_iff.1 hr
  obtain ⟨k, hk, hc⟩ := SortedMap.mem_of_find? hl
  have hlw : g.isRealWild l = true := Option.isSome_iff_exists.2 ⟨r, hr⟩
  rw [Nat.compare_eq_eq.1 hc, h.leaders _ hk]
  exact h.isRealWild hlw

theorem leader_value (real : SortedMap Nat WildRoot) {root : Nat} {members : SortedSet Nat}
    (hm : ∀ w ∈ members.toList, q w = q root) :
    q (if real.contains root = true then root else (members.toList.find? real.contains).getD root) =
      q root := by
  split
  · rfl
  · cases hf : members.toList.find? real.contains with
    | none => rfl
    | some w => exact hm w (List.mem_of_find?_eq_some hf)

theorem foldl_iff {α β : Type} (f : β → α → β) (P : β → Prop) (Q : α → Prop)
    (hstep : ∀ acc x, P (f acc x) ↔ P acc ∨ Q x) :
    ∀ (l : List α) (acc : β), P (l.foldl f acc) ↔ P acc ∨ ∃ x ∈ l, Q x
  | [], acc => by simp
  | x :: xs, acc => by
    rw [List.foldl_cons, foldl_iff f P Q hstep xs, hstep]
    simp only [List.mem_cons, exists_eq_or_imp, or_assoc]

theorem coversStore_entry {cs : ConstraintStore} (hcov : coversStore cs = true) {e : Nat × Constraint}
    (he : e ∈ cs.entries) :
    (∀ a b, e.2.relation = .eq (.var a) (.var b) → a < cs.numVars ∧ b < cs.numVars) ∧
      ∀ v, e.2.relation.directWild? = some v → v < cs.numVars := by
  have h := List.all_eq_true.1 hcov e he
  obtain ⟨id, c⟩ := e
  dsimp only at h ⊢
  split at h
  · next a b hr =>
    simp only [Bool.and_eq_true, decide_eq_true_eq] at h
    refine ⟨fun a' b' hr' => ?_, fun v hv => by simp [hr, Relation.directWild?] at hv⟩
    rw [hr, Relation.eq.injEq, Atom.var.injEq, Atom.var.injEq] at hr'
    exact hr'.1 ▸ hr'.2 ▸ h
  · next r hr =>
    refine ⟨fun a b h' => (hr a b h').elim, fun v hv => ?_⟩
    rw [hv] at h
    simpa using h

theorem coversStore_of_scoped {cs : ConstraintStore} (hs : cs.Scoped) : coversStore cs = true := by
  refine List.all_eq_true.2 fun e he => ?_
  have hvars := hs.1 e he
  obtain ⟨id, c⟩ := e
  dsimp only at hvars ⊢
  split
  · next a b hr =>
    rw [hr] at hvars
    simp [Relation.vars, Atom.asVar?] at hvars
    simp [hvars]
  · split
    · next v hv =>
      simpa using hvars v (Relation.mem_vars_of_directWild? hv)
    · rfl

variable [UnifyTable]

theorem compute_allWild (p : Program) (cs : ConstraintStore) : (compute p cs).allWild = cs.wildVars := by
  unfold compute
  split
  dsimp only

theorem compute_isRealWild (p : Program) (cs : ConstraintStore) (v : Nat) :
    (compute p cs).isRealWild v = true ↔ ∃ e ∈ cs.entries, e.2.relation.directWild? = some v := by
  unfold compute
  split
  next uf touched real heq =>
  show real.contains v = true ↔ _
  have hreal := congrArg (fun x : UnifyTable.Table × SortedSet Nat × SortedMap Nat WildRoot => x.2.2) heq
  dsimp only at hreal
  rw [← hreal]
  refine (foldl_iff _ (fun acc : UnifyTable.Table × SortedSet Nat × SortedMap Nat WildRoot =>
      acc.2.2.contains v = true) (fun e : Nat × Constraint => e.2.relation.directWild? = some v)
    ?step _ _).trans ?start
  case start => simp [SortedMap.contains, SortedMap.find?]
  case step =>
    -- one constraint: an equality between slots records no root, any other its direct slot
    rintro ⟨uf', touched', real'⟩ ⟨id, c⟩
    dsimp only
    split
    · next a b hr => simp [hr, Relation.directWild?]
    · split
      · next w hw => rw [SortedMap.contains_insertIfAbsent, hw, Option.some.injEq, eq_comm, or_comm]
      · next hw => simp [hw]

theorem compute_sound [UnifyTable.Lawful] (p : Program) {cs : ConstraintStore} (hcov : coversStore cs = true)
    (hc : cs.Closed cs.env) : (compute p cs).Sound fun v => read cs.env (.var v) := by
  unfold compute
  split
  next uf touched real heq =>
  -- the walk over the constraints: each holds, so each union joins slots of one value
  have hscan : ScanAgrees (fun v => read cs.env (.var v)) cs.numVars (uf, touched, real) := by
    rw [← heq]
    refine List.foldlRecOn (motive := ScanAgrees _ _) _ _ ?_ fun acc hacc e he => ?_
    · exact ⟨UnifyTable.built_create _ _, fun _ h => by simp at h, fun _ h => by simp at h⟩
    obtain ⟨uf', touched', real'⟩ := acc
    obtain ⟨hlt, hwlt⟩ := coversStore_entry hcov he
    obtain ⟨id, c⟩ := e
    have hholds := hc.relations _ he
    dsimp only at hacc hholds hlt hwlt ⊢
    obtain ⟨hbuilt, htouched, hroots⟩ := hacc
    split
    · next a b hr =>
      rw [hr] at hholds
      obtain ⟨ha, hb⟩ := hlt a b hr
      refine ⟨hbuilt.union ha hb hholds, fun v hv => ?_, hroots⟩
      rcases SortedSet.mem_insert hv with rfl | hv
      · exact hb
      rcases SortedSet.mem_insert hv with rfl | hv
      · exact ha
      · exact htouched v hv
    · split
      · next v hv =>
        refine ⟨hbuilt, fun w hw => ?_, hroots.insertIfAbsent (Relation.wild_of_directWild? hv hholds) _⟩
        rcases SortedSet.mem_insert hw with rfl | hw
        · exact hwlt _ hv
        · exact htouched w hw
      · exact ⟨hbuilt, htouched, hroots⟩
  obtain ⟨huf, hlt, hreal⟩ := hscan
  extract_lets -underBinder byRoot
  -- grouping by the key each slot finds, which has the slot's value
  have hroot : GroupsAgree (fun v => read cs.env (.var v)) byRoot := by
    unfold byRoot
    refine List.foldlRecOn _ _ (fun _ h => by simp at h) fun m hm v hv => ?_
    exact hm.alter_insert (huf.label_find (hlt v hv)).symm
  clear_value byRoot
  split
  next leaders groups heq' =>
  have hlead : LeadAgrees (fun v => read cs.env (.var v)) (leaders, groups) := by
    rw [← heq']
    refine List.foldlRecOn (motive := LeadAgrees _) _ _ ?_ fun acc hacc e he => ?_
    · exact ⟨fun _ h => by simp at h, fun _ h => by simp at h⟩
    obtain ⟨root, members⟩ := e
    have hm := hroot _ he
    have hl := leader_value real hm
    dsimp only at hm hl ⊢
    refine ⟨?_, hacc.2.insert fun w hw => (hm w hw).trans hl.symm⟩
    refine List.foldlRecOn _ _ hacc.1 fun m hm' v hv => ?_
    exact hm'.insert ((hm v hv).trans hl.symm)
  exact ⟨hlead.1, hlead.2, hreal⟩

end WildGroups

end CheckedPointers
