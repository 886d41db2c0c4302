import CheckedPointers.Proofs.Sorted

/-!
# Sorted sets and maps stay ascending

Every update of a sorted set or map keeps its list strictly ascending (`SortedSet.Ascending`,
`SortedMap.Ascending`), so that a map has one entry per key and a lookup reads it: in an
ascending map `find?` finds exactly the entries of the list, and an update at a key finds there
the function's value on what the key found before (`Ascending.find?_alter_self`).

Inserting at keys that are all different needs no order at all: each key finds the value
inserted at it, and every other key what it found before (`find?_foldl_insert_of_mem`,
`find?_foldl_insert_of_forall_ne`).

Adding each member of a list to the set at its key groups the list by that key: an ascending map
of ascending sets, each holding exactly the members of its key, with a set at the key of every
member (`GroupsOf`, `groupsOf_foldl`).
-/

namespace CheckedPointers

namespace SortedSet

variable {α : Type} [Ord α] {x y : α} {s : SortedSet α}

/-- The members ascend strictly. -/
def Ascending (s : SortedSet α) : Prop := s.toList.Pairwise fun a b => compare a b = .lt

theorem ascending_empty : (empty : SortedSet α).Ascending := List.Pairwise.nil

theorem ascending_insertList [Std.TransOrd α] {l : List α}
    (h : l.Pairwise fun a b => compare a b = .lt) :
    (insertList x l).Pairwise fun a b => compare a b = .lt := by
  induction l with
  | nil => simp [insertList]
  | cons y ys ih =>
    obtain ⟨hy, hys⟩ := List.pairwise_cons.1 h
    unfold insertList
    split
    · next hxy =>
      refine List.pairwise_cons.2 ⟨fun z hz => ?_, h⟩
      rcases List.mem_cons.1 hz with rfl | hz
      · exact hxy
      · exact Std.TransCmp.lt_trans hxy (hy z hz)
    · exact h
    · next hxy =>
      refine List.pairwise_cons.2 ⟨fun z hz => ?_, ih hys⟩
      rcases mem_insertList hz with rfl | hz
      · exact Std.OrientedCmp.gt_iff_lt.1 hxy
      · exact hy z hz

theorem Ascending.insert [Std.TransOrd α] (h : s.Ascending) (x : α) : (s.insert x).Ascending :=
  ascending_insertList h

theorem mem_insert_iff [Std.LawfulEqOrd α] : x ∈ (s.insert y).toList ↔ x = y ∨ x ∈ s.toList :=
  ⟨mem_insert, fun h => h.elim (fun h => h ▸ mem_insertList_self _) mem_insertList_of_mem⟩

end SortedSet

namespace SortedMap

variable {κ ν : Type} [Ord κ] {k k' : κ} {v w : ν} {m : SortedMap κ ν}

/-- The keys ascend strictly. -/
def Ascending (m : SortedMap κ ν) : Prop := m.toList.Pairwise fun a b => compare a.1 b.1 = .lt

theorem ascending_empty : (empty : SortedMap κ ν).Ascending := List.Pairwise.nil

theorem ascending_alterList [Std.TransOrd κ] {f : Option ν → ν} {l : List (κ × ν)}
    (h : l.Pairwise fun a b => compare a.1 b.1 = .lt) :
    (alterList k f l).Pairwise fun a b => compare a.1 b.1 = .lt := by
  induction l with
  | nil => simp [alterList]
  | cons e rest ih =>
    obtain ⟨he, hrest⟩ := List.pairwise_cons.1 h
    unfold alterList
    split
    · next hk =>
      refine List.pairwise_cons.2 ⟨fun z hz => ?_, h⟩
      rcases List.mem_cons.1 hz with rfl | hz
      · exact hk
      · exact Std.TransCmp.lt_trans hk (he z hz)
    · exact List.pairwise_cons.2 ⟨he, hrest⟩
    · next hk =>
      refine List.pairwise_cons.2 ⟨fun z hz => ?_, ih hrest⟩
      -- an entry after the update is an old one, or sits at a key equal to `k`
      rcases mem_alterList hz with hz | ⟨hz, -⟩ | ⟨w, hw, hc, -⟩
      · exact he z hz
      · rw [hz]
        exact Std.OrientedCmp.gt_iff_lt.1 hk
      · exact he (z.1, w) hw

theorem Ascending.alter [Std.TransOrd κ] (h : m.Ascending) (k : κ) (f : Option ν → ν) :
    (m.alter k f).Ascending :=
  ascending_alterList h

theorem Ascending.eq_of_mem [Std.ReflOrd κ] (h : m.Ascending) (hv : (k, v) ∈ m.toList)
    (hw : (k, w) ∈ m.toList) : v = w := by
  obtain ⟨l⟩ := m
  unfold Ascending at h
  dsimp only at h hv hw
  induction l with
  | nil => cases hv
  | cons e rest ih =>
    obtain ⟨he, hrest⟩ := List.pairwise_cons.1 h
    -- a key met twice would be below itself
    have hself : ∀ u, (k, u) ∈ rest → e.1 ≠ k := fun u hu hek => by
      have := he _ hu
      rw [hek, Std.ReflOrd.compare_self] at this
      cases this
    rcases List.mem_cons.1 hv with rfl | hv <;> rcases List.mem_cons.1 hw with hw' | hw
    · exact (Prod.mk.inj hw').2.symm
    · exact absurd rfl (hself w hw)
    · exact absurd (congrArg Prod.fst hw').symm (hself v hv)
    · exact ih hrest hv hw

theorem Ascending.find?_eq_some_iff [Std.LawfulEqOrd κ] (h : m.Ascending) :
    m.find? k = some v ↔ (k, v) ∈ m.toList := by
  constructor
  · intro hf
    obtain ⟨k', hk', hc⟩ := mem_of_find? hf
    rwa [Std.LawfulEqOrd.eq_of_compare hc]
  · intro hv
    obtain ⟨w, hw⟩ := Option.isSome_iff_exists.1 (find?_isSome_of_mem hv Std.ReflCmp.compare_self)
    obtain ⟨k', hk', hc⟩ := mem_of_find? hw
    rw [← Std.LawfulEqOrd.eq_of_compare hc] at hk'
    rw [hw, h.eq_of_mem hv hk']

/-- Updating a key of an ascending map sets it to the function's value on what it found. -/
theorem Ascending.find?_alter_self [Std.TransOrd κ] [Std.LawfulEqOrd κ] (h : m.Ascending)
    (f : Option ν → ν) : (m.alter k f).find? k = some (f (m.find? k)) := by
  obtain ⟨l⟩ := m
  unfold Ascending at h
  simp only [SortedMap.alter, SortedMap.find?] at h ⊢
  induction l with
  | nil => simp [alterList, Std.ReflCmp.compare_self]
  | cons e rest ih =>
    obtain ⟨he, hrest⟩ := List.pairwise_cons.1 h
    unfold alterList
    split
    · -- `k` goes first: every old key is above it, so none was `k`
      next hk =>
      have hnone : (rest.find? fun e => compare k e.1 == .eq) = none :=
        List.find?_eq_none.2 fun z hz => by simp [Std.TransCmp.lt_trans hk (he z hz)]
      simp [Std.ReflCmp.compare_self, hk, hnone]
    · next hk => simp [hk]
    · next hk => simpa [hk] using ih hrest

end SortedMap

/-! ## Inserting at distinct keys -/

namespace SortedMap

variable {κ ν β : Type} [Ord κ] [Std.LawfulEqOrd κ] (key : β → κ) (val : β → ν)

theorem find?_foldl_insert_of_forall_ne {k : κ} :
    ∀ (l : List β) (m : SortedMap κ ν), (∀ x ∈ l, key x ≠ k) →
      (l.foldl (fun m x => m.insert (key x) (val x)) m).find? k = m.find? k
  | [], _, _ => rfl
  | x :: rest, m, hne => by
    rw [List.foldl_cons, find?_foldl_insert_of_forall_ne rest _ fun y hy => hne y (List.mem_cons_of_mem x hy)]
    exact find?_alter_of_ne (Ne.symm (hne x List.mem_cons_self)) _

theorem find?_foldl_insert_of_mem {x : β} :
    ∀ (l : List β) (m : SortedMap κ ν), (l.map key).Nodup → x ∈ l →
      (l.foldl (fun m x => m.insert (key x) (val x)) m).find? (key x) = some (val x)
  | y :: rest, m, hnd, hx => by
    obtain ⟨hy, hnd⟩ := List.nodup_cons.1 hnd
    rw [List.foldl_cons]
    rcases List.mem_cons.1 hx with rfl | hx
    · -- no later key is this one
      rw [find?_foldl_insert_of_forall_ne (k := key x) key val rest _ fun z hz hzx =>
        hy (hzx ▸ List.mem_map_of_mem hz)]
      exact find?_insert_self
    · exact find?_foldl_insert_of_mem rest _ hnd hx

theorem find?_foldl_insert_eq_some_iff {l : List β} (hnd : (l.map key).Nodup) {k : κ} {v : ν} :
    (l.foldl (fun m x => m.insert (key x) (val x)) empty).find? k = some v ↔
      ∃ x ∈ l, key x = k ∧ val x = v := by
  constructor
  · intro hf
    by_cases hk : ∃ x ∈ l, key x = k
    · obtain ⟨x, hx, rfl⟩ := hk
      rw [find?_foldl_insert_of_mem key val l _ hnd hx, Option.some.injEq] at hf
      exact ⟨x, hx, rfl, hf⟩
    · rw [find?_foldl_insert_of_forall_ne key val l _ fun x hx hxk => hk ⟨x, hx, hxk⟩] at hf
      simp [find?] at hf
  · rintro ⟨x, hx, rfl, rfl⟩
    exact find?_foldl_insert_of_mem key val l _ hnd hx

end SortedMap

/-! ## Grouping by a key -/

namespace SortedMap

variable {κ α : Type} [Ord κ] [DecidableEq κ] [Std.TransOrd κ] [Std.LawfulEqOrd κ] [Ord α]
  [Std.TransOrd α] [Std.LawfulEqOrd α] (g : α → κ) {m : SortedMap κ (SortedSet α)} {S : List α}

/-- `m` groups the list `S` by `g`: its sets ascend and hold, at each key, exactly the members of
`S` with that key; a set stands at a key only for such a member, and at the key of every member. -/
structure GroupsOf (m : SortedMap κ (SortedSet α)) (S : List α) : Prop where
  ascending : m.Ascending
  members : ∀ r ms, m.find? r = some ms → ms.Ascending ∧ ∀ v, v ∈ ms.toList ↔ v ∈ S ∧ g v = r
  nonempty : ∀ r ms, m.find? r = some ms → ∃ v ∈ S, g v = r
  covers : ∀ v ∈ S, (m.find? (g v)).isSome

omit [DecidableEq κ] [Std.TransOrd κ] [Std.LawfulEqOrd κ] [Std.TransOrd α] [Std.LawfulEqOrd α] in
theorem groupsOf_empty : GroupsOf g (empty : SortedMap κ (SortedSet α)) [] :=
  ⟨ascending_empty, fun _ _ h => by simp [find?] at h, fun _ _ h => by simp [find?] at h,
    fun _ h => nomatch h⟩

theorem GroupsOf.add (h : GroupsOf g m S) (v : α) :
    GroupsOf g (m.alter (g v) fun s => (s.getD SortedSet.empty).insert v) (S ++ [v]) := by
  have hfind : ∀ r, (m.alter (g v) fun s => (s.getD SortedSet.empty).insert v).find? r =
      if r = g v then some (((m.find? r).getD SortedSet.empty).insert v) else m.find? r := by
    intro r
    split
    · next hr => subst hr; exact h.ascending.find?_alter_self _
    · next hr => exact find?_alter_of_ne hr _
  -- the set a key found before, empty when it had none
  have hold : ∀ r, ((m.find? r).getD SortedSet.empty).Ascending ∧
      ∀ x, x ∈ ((m.find? r).getD SortedSet.empty).toList ↔ x ∈ S ∧ g x = r := by
    intro r
    cases hm : m.find? r with
    | none =>
      refine ⟨SortedSet.ascending_empty, fun x => ⟨fun hx => by simp at hx, ?_⟩⟩
      rintro ⟨hx, hgx⟩
      have := h.covers x hx
      rw [hgx, hm] at this
      cases this
    | some ms => exact h.members r ms hm
  refine ⟨h.ascending.alter _ _, fun r ms hms => ?_, fun r ms hms => ?_, fun w hw => ?_⟩
  · rw [hfind] at hms
    split at hms
    · next hr =>
      cases hms
      refine ⟨(hold r).1.insert v, fun x => ?_⟩
      rw [SortedSet.mem_insert_iff, (hold r).2, List.mem_append, List.mem_singleton]
      constructor
      · rintro (rfl | ⟨hx, hgx⟩)
        · exact ⟨.inr rfl, hr.symm⟩
        · exact ⟨.inl hx, hgx⟩
      · rintro ⟨hx | rfl, hgx⟩
        · exact .inr ⟨hx, hgx⟩
        · exact .inl rfl
    · next hr =>
      obtain ⟨hasc, hmem⟩ := h.members r ms hms
      refine ⟨hasc, fun x => ?_⟩
      rw [hmem, List.mem_append, List.mem_singleton]
      constructor
      · rintro ⟨hx, hgx⟩
        exact ⟨.inl hx, hgx⟩
      · rintro ⟨hx | rfl, hgx⟩
        · exact ⟨hx, hgx⟩
        · exact absurd hgx.symm hr
  · rw [hfind] at hms
    split at hms
    · next hr => exact ⟨v, List.mem_append_right _ (List.mem_singleton_self v), hr.symm⟩
    · obtain ⟨w, hw, hgw⟩ := h.nonempty r ms hms
      exact ⟨w, List.mem_append_left _ hw, hgw⟩
  · rw [hfind]
    split
    · rfl
    · rcases List.mem_append.1 hw with hw | hw
      · exact h.covers w hw
      · next hne => exact absurd (congrArg g (List.mem_singleton.1 hw)) hne

theorem groupsOf_foldl : ∀ (L : List α) (m : SortedMap κ (SortedSet α)) (S : List α), GroupsOf g m S →
    GroupsOf g (L.foldl (fun m v => m.alter (g v) fun s => (s.getD SortedSet.empty).insert v) m) (S ++ L)
  | [], _, S, h => by simpa using h
  | v :: rest, m, S, h => by
    have := groupsOf_foldl rest _ (S ++ [v]) (h.add g v)
    simpa using this

end SortedMap

end CheckedPointers
