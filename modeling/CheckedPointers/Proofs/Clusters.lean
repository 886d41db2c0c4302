import Mathlib.Data.List.Nodup
import CheckedPointers.Proofs.UnionFind
import CheckedPointers.Proofs.Ascending
import CheckedPointers.Proofs.WildGroups
import CheckedPointers.Proofs.StoreSteps

/-!
# Clusters are the components of the graph of equalities

Clustering reads a graph off a store: its edges are the equalities between two slots
(`ConstraintStore.SlotEq`), and it groups the slots that some equality between slots or some
constraint forcing a slot to `wild` mentions (`ConstraintStore.Touched`). Its walk over the
constraints (`WildGroups.scanStep`) joins the two slots of each equality in a unification table,
which by the table's laws (`UnifyTable.Lawful`) then joins exactly the classes of those equalities,
so two touched slots find one key exactly when a path of equalities connects them. Grouping the
touched slots by the key they find (their root) then gives one group per component
(`SortedMap.GroupsOf`), each keyed by a leader among its members; the leaders differ because the
groups do.

A store whose constraints name only its own slots is clustered into `WildGroups.Components`:
groups that are exactly the touched parts of the components, a leader for every touched slot and
no other, the first constraint forcing each slot to `wild` as its root cause, and the leader
chosen as the root when that is a root cause, else the least root cause of the group, else the
root. This holds of every lawful table; which member is a component's root is the table's choice.
-/

namespace CheckedPointers

theorem Relation.directWild?_eq_some_iff {r : Relation} {v : Nat} :
    r.directWild? = some v ↔ r = .geq v .wild ∨ r = .eq (.var v) (.const .wild) := by
  unfold Relation.directWild?
  split <;> grind

namespace ConstraintStore

variable {cs : ConstraintStore} {v w : Nat}

/-- An equality between two slots: an edge of the graph clusters are read from. -/
def SlotEq (cs : ConstraintStore) (a b : Nat) : Prop :=
  ∃ e ∈ cs.entries, e.2.relation = .eq (.var a) (.var b)

/-- Two slots joined by a path of equalities between slots. -/
def Connected (cs : ConstraintStore) : Nat → Nat → Prop := Relation.EqvGen cs.SlotEq

/-- A constraint puts a slot into the clusters: it equates it with a slot, or forces it to `wild`
directly. -/
def TouchesSlot (r : Relation) (v : Nat) : Prop :=
  (∃ a b, r = .eq (.var a) (.var b) ∧ (v = a ∨ v = b)) ∨ r.directWild? = some v

/-- A slot that clustering groups. -/
def Touched (cs : ConstraintStore) (v : Nat) : Prop := ∃ e ∈ cs.entries, TouchesSlot e.2.relation v

/-- The root cause clustering records for a slot: the first constraint forcing it to `wild`
directly, with its reason and location. -/
def firstWildRoot? (cs : ConstraintStore) (v : Nat) : Option WildRoot :=
  (cs.entries.find? fun e => e.2.relation.directWild? == some v).map
    fun e => ⟨v, e.1, e.2.reason, e.2.loc⟩

theorem Connected.eq_or_touched (h : cs.Connected v w) : v = w ∨ (cs.Touched v ∧ cs.Touched w) := by
  induction h with
  | rel a b hab =>
    obtain ⟨e, he, hr⟩ := hab
    exact .inr ⟨⟨e, he, .inl ⟨a, b, hr, .inl rfl⟩⟩, ⟨e, he, .inl ⟨a, b, hr, .inr rfl⟩⟩⟩
  | refl => exact .inl rfl
  | symm a b _ ih => exact ih.imp Eq.symm And.symm
  | trans a b c _ _ ih₁ ih₂ =>
    rcases ih₁ with rfl | ⟨ha, hb⟩
    · exact ih₂
    · rcases ih₂ with rfl | ⟨-, hc⟩
      · exact .inr ⟨ha, hb⟩
      · exact .inr ⟨ha, hc⟩

theorem firstWildRoot?_eq_some_iff {r : WildRoot} :
    cs.firstWildRoot? v = some r ↔ ∃ c, (r.constraint, c) ∈ cs.entries ∧
      c.relation.directWild? = some v ∧ r = ⟨v, r.constraint, c.reason, c.loc⟩ ∧
      ∀ e ∈ cs.entries, e.2.relation.directWild? = some v → r.constraint ≤ e.1 := by
  -- the first such constraint comes before every other, and ids ascend
  have hfirst : ∀ e, (cs.entries.find? fun e => e.2.relation.directWild? == some v) = some e →
      ∀ e' ∈ cs.entries, e'.2.relation.directWild? = some v → e.1 ≤ e'.1 := by
    intro e he e' he' hv'
    obtain ⟨-, as, bs, hl, has⟩ := List.find?_eq_some_iff_append.1 he
    have hpair := cs.idsAscend.1
    rw [hl, List.map_append, List.pairwise_append, List.map_cons, List.pairwise_cons] at hpair
    rw [hl] at he'
    rcases List.mem_append.1 he' with h | h
    · have := has e' h
      simp [hv'] at this
    · rcases List.mem_cons.1 h with rfl | h
      · exact Nat.le_refl _
      · exact Nat.le_of_lt (hpair.2.1.1 _ (List.mem_map_of_mem h))
  unfold firstWildRoot?
  constructor
  · intro hf
    obtain ⟨e, he, rfl⟩ := Option.map_eq_some_iff.1 hf
    exact ⟨e.2, List.mem_of_find?_eq_some he, by simpa using List.find?_some he, rfl, hfirst e he⟩
  · rintro ⟨c, hc, hcv, hr, hmin⟩
    -- some constraint is found, and by the least id it is this one
    obtain ⟨e, he⟩ := Option.isSome_iff_exists.1
      (List.find?_isSome.2 ⟨_, hc, by simp [hcv]⟩ : (cs.entries.find? fun e =>
        e.2.relation.directWild? == some v).isSome)
    have hemem := List.mem_of_find?_eq_some he
    have heid : e.1 = r.constraint :=
      Nat.le_antisymm (hfirst e he _ hc hcv) (hmin e hemem (by simpa using List.find?_some he))
    have hnd : (cs.entries.map Prod.fst).Nodup := cs.idsAscend.1.imp Nat.ne_of_lt
    rw [he, List.inj_on_of_nodup_map hnd hemem hc heid]
    exact congrArg some hr.symm

end ConstraintStore

/-- The two slots of an equality between slots. -/
def Relation.slotEq? : Relation → Option (Nat × Nat)
  | .eq (.var a) (.var b) => some (a, b)
  | _ => none

theorem Relation.slotEq?_eq_some_iff {r : Relation} {a b : Nat} :
    r.slotEq? = some (a, b) ↔ r = .eq (.var a) (.var b) := by
  unfold slotEq?
  split <;> grind

namespace WildGroups

open ConstraintStore

variable {cs : ConstraintStore}

/-- The leader of the group of `members` under the root `root`: the root when it is a root cause,
else the first root cause among the members, else the root. -/
def lead (real : SortedMap Nat WildRoot) (root : Nat) (members : SortedSet Nat) : Nat :=
  if real.contains root then root else (members.toList.find? real.contains).getD root

/-! ## Leaders of the groups by root -/

section Lead

variable {find : Nat → Nat} {S : List Nat} {m : SortedMap Nat (SortedSet Nat)} {r v : Nat}
  {ms : SortedSet Nat}

/-- Slots grouped by their roots, where the root of a grouped slot is a grouped slot and its own
root. -/
structure Rooted (find : Nat → Nat) (S : List Nat) (m : SortedMap Nat (SortedSet Nat)) : Prop where
  groups : SortedMap.GroupsOf find m S
  root_mem : ∀ v ∈ S, find v ∈ S
  root_find : ∀ v ∈ S, find (find v) = find v

theorem Rooted.find_of_mem (h : Rooted find S m) (hm : m.find? r = some ms) (hv : v ∈ ms.toList) :
    find v = r :=
  (((h.groups.members r ms hm).2 v).1 hv).2

theorem Rooted.lead_mem (h : Rooted find S m) (real : SortedMap Nat WildRoot) (hm : m.find? r = some ms) :
    lead real r ms ∈ ms.toList := by
  obtain ⟨v, hv, rfl⟩ := h.groups.nonempty r ms hm
  have hroot : find v ∈ ms.toList :=
    ((h.groups.members _ ms hm).2 _).2 ⟨h.root_mem v hv, h.root_find v hv⟩
  unfold lead
  split
  · exact hroot
  · cases hf : ms.toList.find? real.contains with
    | none => exact hroot
    | some w => exact List.mem_of_find?_eq_some hf

theorem Rooted.find?_of_mem (h : Rooted find S m) {e : Nat × SortedSet Nat} (he : e ∈ m.toList) :
    m.find? e.1 = some e.2 :=
  h.groups.ascending.find?_eq_some_iff.2 he

theorem Rooted.nodup_lead (h : Rooted find S m) (real : SortedMap Nat WildRoot) :
    (m.toList.map fun e => lead real e.1 e.2).Nodup := by
  refine List.Pairwise.map _ (fun _ _ h => h) (h.groups.ascending.imp_of_mem fun he₁ he₂ hlt heq => ?_)
  have h₁ := h.find_of_mem (h.find?_of_mem he₁) (h.lead_mem real (h.find?_of_mem he₁))
  have h₂ := h.find_of_mem (h.find?_of_mem he₂) (h.lead_mem real (h.find?_of_mem he₂))
  rw [heq, h₂] at h₁
  rw [h₁, Nat.compare_eq_lt] at hlt
  exact Nat.lt_irrefl _ hlt

theorem Rooted.nodup_members (h : Rooted find S m) : (m.toList.flatMap fun e => e.2.toList).Nodup := by
  refine List.nodup_flatMap.2 ⟨fun e he => ?_, h.groups.ascending.imp_of_mem fun he₁ he₂ hlt v hv₁ hv₂ => ?_⟩
  · exact ((h.groups.members _ _ (h.find?_of_mem he)).1).imp fun hlt' => Nat.ne_of_lt (Nat.compare_eq_lt.1 hlt')
  · have h₁ := h.find_of_mem (h.find?_of_mem he₁) hv₁
    rw [h.find_of_mem (h.find?_of_mem he₂) hv₂, Nat.compare_eq_lt] at *
    exact Nat.lt_irrefl _ (h₁ ▸ hlt)

theorem lead_of_contains (real : SortedMap Nat WildRoot) (hr : real.contains r = true) :
    lead real r ms = r := if_pos hr

theorem lead_of_forall (real : SortedMap Nat WildRoot) (hms : ∀ v ∈ ms.toList, real.contains v = false) :
    lead real r ms = r := by
  unfold lead
  split
  · rfl
  · rw [List.find?_eq_none.2 fun v hv => by simp [hms v hv], Option.getD_none]

theorem lead_least (real : SortedMap Nat WildRoot) (hms : ms.Ascending) (hr : real.contains r = false)
    (hv : v ∈ ms.toList) (hrv : real.contains v = true) :
    real.contains (lead real r ms) = true ∧ lead real r ms ≤ v := by
  obtain ⟨w, hw⟩ := Option.isSome_iff_exists.1 (List.find?_isSome.2 ⟨v, hv, hrv⟩ :
    (ms.toList.find? real.contains).isSome)
  rw [lead, if_neg (by simp [hr]), hw, Option.getD_some]
  refine ⟨List.find?_some hw, ?_⟩
  -- the members before the first root cause are none, and the members ascend
  obtain ⟨-, as, bs, hl, has⟩ := List.find?_eq_some_iff_append.1 hw
  have hpair : ms.toList.Pairwise fun a b => compare a b = .lt := hms
  rw [hl] at hv hpair
  rcases List.mem_append.1 hv with h | h
  · simpa [hrv] using has v h
  · rcases List.mem_cons.1 h with rfl | h
    · exact Nat.le_refl _
    · exact Nat.le_of_lt (Nat.compare_eq_lt.1 ((List.pairwise_cons.1 (List.pairwise_append.1 hpair).2.1).1 _ h))

end Lead

/-! ## The graph of equalities between slots -/

theorem lt_of_touched (hcov : coversStore cs = true) {v : Nat} (hv : cs.Touched v) : v < cs.numVars := by
  obtain ⟨e, he, ⟨a, b, hr, rfl | rfl⟩ | hw⟩ := hv
  · exact ((coversStore_entry hcov he).1 _ _ hr).1
  · exact ((coversStore_entry hcov he).1 _ _ hr).2
  · exact (coversStore_entry hcov he).2 _ hw

theorem lt_of_slotEq (hcov : coversStore cs = true) {a b : Nat} (h : cs.SlotEq a b) :
    a < cs.numVars ∧ b < cs.numVars := by
  obtain ⟨e, he, hr⟩ := h
  exact (coversStore_entry hcov he).1 a b hr

/-- The equalities between slots of a list of constraints, in order. -/
def slotEqs (l : List (Nat × Constraint)) : List (Nat × Nat) := l.filterMap fun e => e.2.relation.slotEq?

theorem mem_slotEqs {l : List (Nat × Constraint)} {a b : Nat} :
    (a, b) ∈ slotEqs l ↔ ∃ e ∈ l, e.2.relation = .eq (.var a) (.var b) := by
  simp [slotEqs, List.mem_filterMap, Relation.slotEq?_eq_some_iff]

section Clustering

variable [UnifyTable]

/-- One constraint of the walk that builds the table: an equality between slots joins them. -/
def forestStep (uf : UnifyTable.Table) (e : Nat × Constraint) : UnifyTable.Table :=
  match e.2.relation with
  | .eq (.var a) (.var b) => UnifyTable.union uf a b
  | _ => uf

/-- The table clusters are grouped by: the slots of the store joined along its equalities between
slots, in id order. -/
def forest (cs : ConstraintStore) : UnifyTable.Table :=
  cs.entries.foldl forestStep (UnifyTable.create cs.numVars)

/-- One constraint of the walk clustering makes over the store: an equality between slots joins
and records both, a constraint forcing a slot to `wild` records it and, if it is the first for
that slot, records it as the slot's root cause. -/
def scanStep (acc : UnifyTable.Table × SortedSet Nat × SortedMap Nat WildRoot) (e : Nat × Constraint) :
    UnifyTable.Table × SortedSet Nat × SortedMap Nat WildRoot :=
  let (uf, touched, real) := acc
  let (id, c) := e
  match c.relation with
  | .eq (.var a) (.var b) => (UnifyTable.union uf a b, (touched.insert a).insert b, real)
  | r =>
    match r.directWild? with
    | some v => (uf, touched.insert v, real.insertIfAbsent v ⟨v, id, c.reason, c.loc⟩)
    | none => (uf, touched, real)

/-- The walk clustering makes over all constraints of a store. -/
def scan (cs : ConstraintStore) : UnifyTable.Table × SortedSet Nat × SortedMap Nat WildRoot :=
  cs.entries.foldl scanStep (UnifyTable.create cs.numVars, SortedSet.empty, SortedMap.empty)
/-! ## The walk over the constraints -/

section Scan

variable {acc : UnifyTable.Table × SortedSet Nat × SortedMap Nat WildRoot} {e : Nat × Constraint} {v : Nat}

theorem scanStep_fst (acc : UnifyTable.Table × SortedSet Nat × SortedMap Nat WildRoot) (e : Nat × Constraint) :
    (scanStep acc e).1 = forestStep acc.1 e := by
  obtain ⟨uf, touched, real⟩ := acc
  obtain ⟨id, c⟩ := e
  simp only [scanStep, forestStep]
  split
  · rfl
  · split <;> rfl

theorem scan_fst (cs : ConstraintStore) : (scan cs).1 = forest cs :=
  (List.foldl_hom Prod.fst fun acc e => (scanStep_fst acc e).symm).symm

theorem mem_scanStep_touched :
    v ∈ (scanStep acc e).2.1.toList ↔ v ∈ acc.2.1.toList ∨ TouchesSlot e.2.relation v := by
  obtain ⟨uf, touched, real⟩ := acc
  obtain ⟨id, c⟩ := e
  simp only [scanStep]
  split
  · next a b hr =>
    simp only [SortedSet.mem_insert_iff, TouchesSlot, hr, Relation.directWild?, Relation.eq.injEq,
      Atom.var.injEq]
    grind
  · next r hr =>
    have hnot : ¬ ∃ a b, c.relation = .eq (.var a) (.var b) ∧ (v = a ∨ v = b) := by
      rintro ⟨a, b, h, -⟩
      exact hr a b h
    simp only [TouchesSlot, hnot, false_or]
    split
    · next w hw =>
      rw [SortedSet.mem_insert_iff, hw, Option.some.injEq, eq_comm (a := w), or_comm]
    · next hw => simp [hw]

theorem Ascending.scanStep_touched (h : acc.2.1.Ascending) : (scanStep acc e).2.1.Ascending := by
  obtain ⟨uf, touched, real⟩ := acc
  obtain ⟨id, c⟩ := e
  simp only [scanStep]
  split
  · exact (h.insert _).insert _
  · split
    · exact h.insert _
    · exact h

theorem scan_touched (cs : ConstraintStore) :
    (scan cs).2.1.Ascending ∧ ∀ v, v ∈ (scan cs).2.1.toList ↔ cs.Touched v := by
  refine ⟨List.foldlRecOn (motive := fun acc : UnifyTable.Table × SortedSet Nat × SortedMap Nat WildRoot =>
    acc.2.1.Ascending) _ _ SortedSet.ascending_empty
    fun acc h e _ => Ascending.scanStep_touched h, fun v => ?_⟩
  refine (foldl_iff scanStep (fun acc : UnifyTable.Table × SortedSet Nat × SortedMap Nat WildRoot =>
    v ∈ acc.2.1.toList) (fun e => TouchesSlot e.2.relation v)
    (fun _ _ => mem_scanStep_touched) _ _).trans ?_
  simp [Touched]

theorem scanStep_real (h : acc.2.2.Ascending) :
    (scanStep acc e).2.2.Ascending ∧ ∀ v, (scanStep acc e).2.2.find? v =
      (acc.2.2.find? v).or (if e.2.relation.directWild? = some v then
        some ⟨v, e.1, e.2.reason, e.2.loc⟩ else none) := by
  obtain ⟨uf, touched, real⟩ := acc
  obtain ⟨id, c⟩ := e
  simp only [scanStep]
  split
  · next a b hr => simp [hr, Relation.directWild?, h]
  · split
    · next w hw =>
      refine ⟨h.alter _ _, fun v => ?_⟩
      by_cases hv : v = w
      · subst hv
        simp [SortedMap.insertIfAbsent, h.find?_alter_self, hw, Option.or_some]
      · have hne : ¬ some w = some v := fun h' => hv (Option.some.inj h').symm
        simp [SortedMap.insertIfAbsent, SortedMap.find?_alter_of_ne hv, hw, hne]
    · next hw => simp [hw, h]

theorem scan_real_foldl : ∀ (l : List (Nat × Constraint)) (acc : UnifyTable.Table × SortedSet Nat × SortedMap Nat WildRoot),
    acc.2.2.Ascending → (l.foldl scanStep acc).2.2.Ascending ∧ ∀ v, (l.foldl scanStep acc).2.2.find? v =
      (acc.2.2.find? v).or ((l.find? fun e => e.2.relation.directWild? == some v).map
        fun e => ⟨v, e.1, e.2.reason, e.2.loc⟩)
  | [], _, h => ⟨h, fun v => by simp⟩
  | e :: rest, acc, h => by
    obtain ⟨h₁, hfind₁⟩ := scanStep_real (e := e) h
    obtain ⟨h₂, hfind₂⟩ := scan_real_foldl rest _ h₁
    refine ⟨h₂, fun v => ?_⟩
    rw [List.foldl_cons, hfind₂, hfind₁]
    -- the first constraint forcing `v` is this one, or comes later
    by_cases hv : e.2.relation.directWild? = some v <;> simp [hv]

theorem scan_real (cs : ConstraintStore) :
    (scan cs).2.2.Ascending ∧ ∀ v, (scan cs).2.2.find? v = cs.firstWildRoot? v := by
  obtain ⟨h, hfind⟩ := scan_real_foldl cs.entries
    (UnifyTable.create cs.numVars, SortedSet.empty, SortedMap.empty) SortedMap.ascending_empty
  exact ⟨h, fun v => by rw [scan, hfind]; simp [firstWildRoot?, SortedMap.find?]⟩

end Scan

/-! ## The table joins the components -/

theorem foldl_forestStep : ∀ (l : List (Nat × Constraint)) (t : UnifyTable.Table),
    l.foldl forestStep t = UnifyTable.unionAll t (slotEqs l)
  | [], _ => rfl
  | e :: l, t => by
    rw [List.foldl_cons, foldl_forestStep l]
    unfold forestStep slotEqs
    split
    · next a b hr => simp [hr, Relation.slotEq?, UnifyTable.unionAll]
    · next hr =>
      have hnone : e.2.relation.slotEq? = none := by
        unfold Relation.slotEq?
        split
        · next a b h => exact (hr a b h).elim
        · rfl
      simp [hnone]

theorem forest_joins [UnifyTable.Lawful] (hcov : coversStore cs = true) :
    UnifyTable.Joins (forest cs) cs.numVars cs.SlotEq := by
  have hlt : ∀ p ∈ slotEqs cs.entries, p.1 < cs.numVars ∧ p.2 < cs.numVars := fun p hp =>
    lt_of_slotEq hcov (mem_slotEqs.1 hp)
  rw [forest, foldl_forestStep]
  exact (UnifyTable.Lawful.joins _ _ hlt).congr fun a b => mem_slotEqs

/-! ## Clusters of a store -/

/-- Clusters that are the components of the graph of equalities between slots of `cs`, restricted
to its touched slots, one group per component, each keyed by a leader among its members; every
touched slot and no other has its group's leader, and each root cause is the slot's first
constraint forcing it to `wild`. The leader is a root cause exactly when the group has one: the
root when that is a root cause (or when the group has none), else the least root cause of the
group. -/
structure Components (cs : ConstraintStore) (g : WildGroups) : Prop where
  groups : ∀ l ms, g.groups.find? l = some ms → ∀ v, v ∈ ms.toList ↔ cs.Touched v ∧ cs.Connected v l
  leader_mem : ∀ l ms, g.groups.find? l = some ms → l ∈ ms.toList
  unique : ∀ l₁ ms₁ l₂ ms₂, g.groups.find? l₁ = some ms₁ → g.groups.find? l₂ = some ms₂ →
    cs.Connected l₁ l₂ → l₁ = l₂
  covers : ∀ v, cs.Touched v → ∃ l ms, g.groups.find? l = some ms ∧ v ∈ ms.toList
  leaders : ∀ v l, g.leaderOf? v = some l ↔ ∃ ms, g.groups.find? l = some ms ∧ v ∈ ms.toList
  realWild : ∀ v, g.realWild.find? v = cs.firstWildRoot? v
  leader_real : ∀ l ms, g.groups.find? l = some ms → (g.isRealWild l = true ↔ ∃ v ∈ ms.toList, g.isRealWild v = true)
  root_leads : ∀ l ms, g.groups.find? l = some ms →
    (g.isRealWild (UnifyTable.find (forest cs) l) = true ∨ ∀ v ∈ ms.toList, g.isRealWild v = false) →
      l = UnifyTable.find (forest cs) l
  least_leads : ∀ l ms, g.groups.find? l = some ms → g.isRealWild (UnifyTable.find (forest cs) l) = false →
    ∀ v ∈ ms.toList, g.isRealWild v = true → l ≤ v
  groups_ascending : g.groups.Ascending
  members_ascending : ∀ l ms, g.groups.find? l = some ms → ms.Ascending
  realWild_ascending : g.realWild.Ascending

theorem compute_components [UnifyTable.Lawful] (p : Program) (hcov : coversStore cs = true) :
    (compute p cs).Components cs := by
  have hJ := forest_joins hcov
  obtain ⟨htA, htouched⟩ := scan_touched cs
  obtain ⟨hrA, hreal⟩ := scan_real cs
  have hfst := scan_fst cs
  unfold compute
  split
  next uf touched real heq =>
  have hscan : scan cs = (uf, touched, real) := heq
  rw [hscan] at htA htouched hrA hreal hfst
  dsimp only at htA htouched hrA hreal hfst
  subst hfst
  have hlt : ∀ v ∈ touched.toList, v < cs.numVars := fun v hv => lt_of_touched hcov ((htouched v).1 hv)
  extract_lets -underBinder byRoot
  -- grouping the touched slots by root: a touched slot's root is touched and its own root
  have hR : Rooted (UnifyTable.find (forest cs)) touched.toList byRoot := by
    have hG := SortedMap.groupsOf_foldl (UnifyTable.find (forest cs)) touched.toList SortedMap.empty []
      (SortedMap.groupsOf_empty _)
    rw [List.nil_append] at hG
    refine ⟨hG, fun v hv => ?_, fun v hv => hJ.find_find (fun _ _ => lt_of_slotEq hcov) (hlt v hv)⟩
    rcases Connected.eq_or_touched (hJ.find_mem_class v (hlt v hv)) with heq | ⟨-, ht⟩
    · rwa [← heq]
    · exact (htouched _).2 ht
  clear_value byRoot
  split
  next leaders groups heq' =>
  -- the two maps, each built by its own walk over the groups
  have hgroups : groups = byRoot.toList.foldl (fun g e => g.insert (lead real e.1 e.2) e.2) SortedMap.empty := by
    rw [show groups = (leaders, groups).2 from rfl, ← heq']
    exact (List.foldl_hom Prod.snd fun _ _ => rfl).symm
  have hleaders : leaders = (byRoot.toList.flatMap fun e => e.2.toList.map fun v => (v, lead real e.1 e.2)).foldl
      (fun m x => m.insert x.1 x.2) SortedMap.empty := by
    rw [show leaders = (leaders, groups).1 from rfl, ← heq', List.foldl_flatMap]
    simp only [List.foldl_map]
    exact (List.foldl_hom Prod.fst fun _ _ => rfl).symm
  have hgroup : ∀ l ms, groups.find? l = some ms ↔ ∃ e ∈ byRoot.toList, lead real e.1 e.2 = l ∧ e.2 = ms := by
    intro l ms
    rw [hgroups]
    exact SortedMap.find?_foldl_insert_eq_some_iff _ _ (hR.nodup_lead real)
  -- a group is the touched part of the component of its leader
  have hroot : ∀ e ∈ byRoot.toList, UnifyTable.find (forest cs) (lead real e.1 e.2) = e.1 := fun e he =>
    hR.find_of_mem (hR.find?_of_mem he) (hR.lead_mem real (hR.find?_of_mem he))
  have hlead_lt : ∀ e ∈ byRoot.toList, lead real e.1 e.2 < cs.numVars := fun e he =>
    hlt _ ((hR.groups.members _ _ (hR.find?_of_mem he)).2 _ |>.1 (hR.lead_mem real (hR.find?_of_mem he))).1
  have hmem : ∀ e ∈ byRoot.toList, ∀ v, v ∈ e.2.toList ↔ cs.Touched v ∧ cs.Connected v (lead real e.1 e.2) := by
    intro e he v
    rw [(hR.groups.members _ _ (hR.find?_of_mem he)).2, htouched]
    constructor
    · rintro ⟨ht, hf⟩
      exact ⟨ht, (hJ.find_eq_iff _ (lt_of_touched hcov ht) _ (hlead_lt e he)).1 (hf.trans (hroot e he).symm)⟩
    · rintro ⟨ht, hc⟩
      exact ⟨ht, ((hJ.find_eq_iff _ (lt_of_touched hcov ht) _ (hlead_lt e he)).2 hc).trans (hroot e he)⟩
  have hasc : ∀ e ∈ byRoot.toList, e.2.Ascending := fun e he => (hR.groups.members _ _ (hR.find?_of_mem he)).1
  refine ⟨?groups, ?leader_mem, ?unique, ?covers, ?leaders, hreal, ?leader_real, ?root_leads, ?least_leads,
    ?groups_ascending, ?members_ascending, hrA⟩
  case groups =>
    intro l ms hl
    obtain ⟨e, he, rfl, rfl⟩ := (hgroup l ms).1 hl
    exact hmem e he
  case leader_mem =>
    intro l ms hl
    obtain ⟨e, he, rfl, rfl⟩ := (hgroup l ms).1 hl
    exact hR.lead_mem real (hR.find?_of_mem he)
  case unique =>
    intro l₁ ms₁ l₂ ms₂ h₁ h₂ hc
    obtain ⟨e₁, he₁, rfl, rfl⟩ := (hgroup _ _).1 h₁
    obtain ⟨e₂, he₂, rfl, rfl⟩ := (hgroup _ _).1 h₂
    -- connected leaders find one root, so both groups are the group under it
    have hf := (hJ.find_eq_iff _ (hlead_lt e₁ he₁) _ (hlead_lt e₂ he₂)).2 hc
    rw [hroot e₁ he₁, hroot e₂ he₂] at hf
    have h₂ := hR.find?_of_mem he₂
    rw [← hf, hR.find?_of_mem he₁, Option.some.injEq] at h₂
    rw [hf, h₂]
  case covers =>
    intro v hv
    obtain ⟨ms, hms⟩ := Option.isSome_iff_exists.1 (hR.groups.covers v ((htouched v).2 hv))
    have he : (UnifyTable.find (forest cs) v, ms) ∈ byRoot.toList := hR.groups.ascending.find?_eq_some_iff.1 hms
    exact ⟨_, ms, (hgroup _ _).2 ⟨_, he, rfl, rfl⟩, ((hR.groups.members _ ms hms).2 v).2 ⟨(htouched v).2 hv, rfl⟩⟩
  case leaders =>
    intro v l
    have hnd : ((byRoot.toList.flatMap fun e => e.2.toList.map fun v => (v, lead real e.1 e.2)).map
        Prod.fst).Nodup := by
      simpa [List.map_flatMap, List.map_map, Function.comp_def] using hR.nodup_members
    simp only [leaderOf?]
    rw [hleaders, SortedMap.find?_foldl_insert_eq_some_iff _ _ hnd]
    simp only [List.mem_flatMap, List.mem_map, hgroup]
    constructor
    · rintro ⟨_, ⟨e, he, w, hw, rfl⟩, rfl, rfl⟩
      exact ⟨e.2, ⟨e, he, rfl, rfl⟩, hw⟩
    · rintro ⟨ms, ⟨e, he, rfl, rfl⟩, hv⟩
      exact ⟨_, ⟨e, he, v, hv, rfl⟩, rfl, rfl⟩
  case leader_real =>
    intro l ms hl
    obtain ⟨e, he, rfl, rfl⟩ := (hgroup l ms).1 hl
    refine ⟨fun h => ⟨_, hR.lead_mem real (hR.find?_of_mem he), h⟩, ?_⟩
    rintro ⟨v, hv, hrv⟩
    cases hr : real.contains e.1
    · exact (lead_least real (hasc e he) hr hv hrv).1
    · rwa [lead_of_contains real hr]
  case root_leads =>
    intro l ms hl h
    obtain ⟨e, he, rfl, rfl⟩ := (hgroup l ms).1 hl
    rw [hroot e he] at h ⊢
    rcases h with h | h
    · exact lead_of_contains real h
    · exact lead_of_forall real h
  case least_leads =>
    intro l ms hl hr v hv hrv
    obtain ⟨e, he, rfl, rfl⟩ := (hgroup l ms).1 hl
    rw [hroot e he] at hr
    exact (lead_least real (hasc e he) hr hv hrv).2
  case groups_ascending =>
    rw [hgroups]
    exact List.foldlRecOn (motive := fun g : SortedMap Nat (SortedSet Nat) => g.Ascending) _ _
      SortedMap.ascending_empty fun g h e _ => h.alter _ _
  case members_ascending =>
    intro l ms hl
    obtain ⟨e, he, rfl, rfl⟩ := (hgroup l ms).1 hl
    exact hasc e he

/-- Clustering a store whose constraints name only its own slots groups its touched slots into the
components of its equalities between slots, and records as each slot's root cause its lowest-id
constraint `v ≥ wild` or `v == wild`. -/
theorem clusters_are_components [UnifyTable.Lawful] (p : Program) (hcov : coversStore cs = true) :
    (compute p cs).Components cs ∧ ∀ v r, (compute p cs).realWild.find? v = some r ↔
      ∃ c, (r.constraint, c) ∈ cs.entries ∧ (c.relation = .geq v .wild ∨ c.relation = .eq (.var v) (.const .wild)) ∧
        r = ⟨v, r.constraint, c.reason, c.loc⟩ ∧ ∀ e ∈ cs.entries,
          (e.2.relation = .geq v .wild ∨ e.2.relation = .eq (.var v) (.const .wild)) → r.constraint ≤ e.1 := by
  have hc := compute_components p hcov
  refine ⟨hc, fun v r => ?_⟩
  rw [hc.realWild v, firstWildRoot?_eq_some_iff]
  simp only [Relation.directWild?_eq_some_iff]

end Clustering

theorem clusters_are_components_of_chain :
    let cs : ConstraintStore := { ((((ConstraintStore.empty.add (.eq (.var 0) (.var 1)) "" none).2.add
      (.eq (.var 1) (.const .wild)) "" none).2.add (.geq 1 .wild) "macro" none).2.add
      (.eq (.var 2) (.const .wild)) "" none).2 with env := #[.wild, .wild, .wild] }
    coversStore cs = true ∧ ((compute default cs).Components cs ∧
      ∀ v r, (compute default cs).realWild.find? v = some r ↔
      ∃ c, (r.constraint, c) ∈ cs.entries ∧ (c.relation = .geq v .wild ∨ c.relation = .eq (.var v) (.const .wild)) ∧
        r = ⟨v, r.constraint, c.reason, c.loc⟩ ∧ ∀ e ∈ cs.entries,
          (e.2.relation = .geq v .wild ∨ e.2.relation = .eq (.var v) (.const .wild)) → r.constraint ≤ e.1) :=
  ⟨by decide, clusters_are_components default (by decide)⟩

end WildGroups

end CheckedPointers
