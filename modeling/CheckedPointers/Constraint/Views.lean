import CheckedPointers.Constraint
import CheckedPointers.Data.KeyMap
import CheckedPointers.Data.Sorted

/-! # The views of the live constraints

A constraint store keeps its live constraints as `(id, constraint)` pairs and, beside them, two
views that it updates with every addition and removal: an index from each live relation to its id,
which deduplicates additions and finds the constraint forcing a slot to `wild`, and the owners of
each slot, the ids of the constraints that mention it. `StoreViews` is what makes the three agree;
an addition under the next id of a relation the index does not hold (`StoreViews.push`) and the
removal of a live constraint (`StoreViews.drop`) keep it.
-/

namespace CheckedPointers

namespace SortedSet

variable {s : SortedSet Nat} {x : Nat}

theorem insertList_of_lt : ∀ {l : List Nat}, (∀ y ∈ l, y < x) → insertList x l = l ++ [x]
  | [], _ => rfl
  | y :: ys, h => by
    have hyx : compare x y = .gt := Nat.compare_eq_gt.2 (h y List.mem_cons_self)
    simp only [insertList, hyx, List.cons_append]
    rw [insertList_of_lt fun z hz => h z (List.mem_cons_of_mem y hz)]

theorem insertList_insertList : ∀ l : List Nat, insertList x (insertList x l) = insertList x l
  | [] => by simp [insertList]
  | y :: ys => by
    have hxx : compare x x = .eq := Nat.compare_eq_eq.2 rfl
    cases hxy : compare x y with
    | lt => simp only [insertList, hxy, hxx]
    | eq => simp only [insertList, hxy]
    | gt => simp only [insertList, hxy, insertList_insertList ys]

/-- The ids of a set all below `x`: inserting `x` puts it last. -/
theorem toList_insert_of_lt (h : ∀ y ∈ s.toList, y < x) : (s.insert x).toList = s.toList ++ [x] :=
  insertList_of_lt h

theorem insert_insert (s : SortedSet Nat) (x : Nat) : (s.insert x).insert x = s.insert x :=
  congrArg SortedSet.mk (insertList_insertList s.toList)

theorem toList_erase (s : SortedSet Nat) (x : Nat) : (s.erase x).toList = s.toList.filter (· != x) := by
  show s.toList.filter _ = _
  refine List.filter_congr fun y _ => ?_
  by_cases h : y = x
  · simp [h]
  · have hc : compare x y ≠ .eq := fun hc => h (Nat.compare_eq_eq.1 hc).symm
    rw [bne_iff_ne.2 hc, bne_iff_ne.2 h]

theorem erase_erase (s : SortedSet Nat) (x : Nat) : (s.erase x).erase x = s.erase x := by
  unfold erase
  simp [List.filter_filter]

end SortedSet

/-- The owners after an addition: the id joins the set of every slot the relation mentions. -/
def addOwners (owners : KeyMap Nat (SortedSet Nat)) (id : Nat) (vars : List Nat) :
    KeyMap Nat (SortedSet Nat) :=
  vars.foldl (fun o v => o.alter v fun s => (s.getD .empty).insert id) owners

/-- The owners after a removal: the id leaves the set of every slot the relation mentions. -/
def dropOwners (owners : KeyMap Nat (SortedSet Nat)) (id : Nat) (vars : List Nat) :
    KeyMap Nat (SortedSet Nat) :=
  vars.foldl (fun o v => o.modify v fun s => s.erase id) owners

/-- The index and the owners agree with the live constraints: ids ascend below the next id, no two
live constraints share a relation, the index holds the id of every live relation and nothing
else, and the owners of a slot are the ids of the live constraints that mention it, ascending. -/
structure StoreViews (entries : List (Nat × Constraint)) (index : KeyMap Relation Nat)
    (owners : KeyMap Nat (SortedSet Nat)) (nextId : Nat) : Prop where
  ascending : (entries.map Prod.fst).Pairwise (· < ·)
  below : ∀ e ∈ entries, e.1 < nextId
  relations : (entries.map fun e => e.2.relation).Nodup
  index : ∀ r, index.find? r = (entries.find? fun e => e.2.relation == r).map Prod.fst
  owners : ∀ v, ((owners.find? v).map SortedSet.toList).getD [] =
    (entries.filter fun e => e.2.relation.vars.contains v).map Prod.fst

namespace StoreViews

variable {entries : List (Nat × Constraint)} {index : KeyMap Relation Nat}
  {owners : KeyMap Nat (SortedSet Nat)} {nextId id : Nat} {c : Constraint}

theorem empty : StoreViews [] .empty .empty 0 :=
  ⟨List.Pairwise.nil, (fun _ h => nomatch h), List.nodup_nil, fun _ => rfl, fun _ => rfl⟩

/-- The pair a lookup by id finds is live. -/
theorem mem_of_find?_id (h : ((entries.find? fun e => e.1 == id).map Prod.snd) = some c) :
    (id, c) ∈ entries := by
  obtain ⟨e, he, rfl⟩ := Option.map_eq_some_iff.1 h
  have hid : e.1 = id := by simpa using List.find?_some he
  exact hid ▸ List.mem_of_find?_eq_some he

/-- Two members of a list with distinct images under `f` and one image are one member. -/
theorem eq_of_nodup_map {α β : Type} {f : α → β} :
    ∀ {l : List α}, (l.map f).Nodup → ∀ {a b : α}, a ∈ l → b ∈ l → f a = f b → a = b
  | [], _, _, _, ha, _, _ => nomatch ha
  | x :: xs, h, a, b, ha, hb, hab => by
    rw [List.map_cons, List.nodup_cons] at h
    obtain ⟨hx, hxs⟩ := h
    rcases List.mem_cons.1 ha with rfl | ha'
    · rcases List.mem_cons.1 hb with rfl | hb'
      · rfl
      · exact (hx (hab ▸ List.mem_map_of_mem hb')).elim
    · rcases List.mem_cons.1 hb with rfl | hb'
      · exact (hx (hab.symm ▸ List.mem_map_of_mem ha')).elim
      · exact eq_of_nodup_map hxs ha' hb' hab

/-- A lookup whose hits a filter keeps finds the same in the filtered list. -/
theorem find?_filter_of_imp {α : Type} {p q : α → Bool} :
    ∀ {l : List α}, (∀ a ∈ l, p a = true → q a = true) → (l.filter q).find? p = l.find? p
  | [], _ => rfl
  | a :: l, h => by
    have ht := find?_filter_of_imp (l := l) fun b hb => h b (List.mem_cons_of_mem a hb)
    by_cases hp : p a = true
    · simp [h a List.mem_cons_self hp, hp]
    · by_cases hq : q a = true <;> simp [hq, hp, ht]

variable (h : StoreViews entries index owners nextId)
include h

theorem ids_nodup : (entries.map Prod.fst).Nodup := h.ascending.imp Nat.ne_of_lt

theorem eq_of_id (he : e ∈ entries) (he' : e' ∈ entries) (hid : e.1 = e'.1) : e = e' :=
  eq_of_nodup_map h.ids_nodup he he' hid

theorem eq_of_relation (he : e ∈ entries) (he' : e' ∈ entries) (hr : e.2.relation = e'.2.relation) :
    e = e' :=
  eq_of_nodup_map h.relations he he' hr

theorem find?_relation_of_index (hr : index.find? r = none) :
    (entries.find? fun e => e.2.relation == r) = none := by
  have hi := h.index r
  rw [hr] at hi
  exact Option.map_eq_none_iff.1 hi.symm

theorem not_mem_of_index (hr : index.find? r = none) : ∀ e ∈ entries, e.2.relation ≠ r := by
  intro e he her
  exact absurd (List.find?_eq_none.1 (h.find?_relation_of_index hr) e he) (by simp [her])

/-- An addition under the next id, of a relation the index does not hold, keeps the views. -/
theorem push (c : Constraint) (hnew : index.find? c.relation = none) :
    StoreViews (entries ++ [(nextId, c)]) (index.insert c.relation nextId)
      (addOwners owners nextId c.relation.vars) (nextId + 1) where
  ascending := by
    rw [List.map_append, List.pairwise_append]
    refine ⟨h.ascending, List.pairwise_singleton _ _, fun a ha b hb => ?_⟩
    obtain ⟨e, he, rfl⟩ := List.mem_map.1 ha
    have hb' : b = nextId := by simpa using hb
    rw [hb']
    exact h.below e he
  below := by
    intro e he
    rcases List.mem_append.1 he with he | he
    · exact Nat.lt_succ_of_lt (h.below e he)
    · rw [List.mem_singleton.1 he]
      exact Nat.lt_succ_self _
  relations := by
    rw [List.map_append, List.nodup_append]
    refine ⟨h.relations, List.pairwise_singleton _ _, fun a ha b hb => ?_⟩
    obtain ⟨e, he, rfl⟩ := List.mem_map.1 ha
    have hb' : b = c.relation := by simpa using hb
    rw [hb']
    exact h.not_mem_of_index hnew e he
  index := by
    intro r
    rw [KeyMap.find?_insert, List.find?_append]
    by_cases hr : r = c.relation
    · -- no live constraint has the new relation, so the lookup reaches the new pair
      subst hr
      simp [h.find?_relation_of_index hnew]
    · have hlast : ([(nextId, c)].find? fun e => e.2.relation == r) = none := by
        simp [Ne.symm hr]
      rw [if_neg hr, hlast, Option.or_none, h.index r]
  owners := by
    intro v
    have hidem : ∀ o : Option (SortedSet Nat),
        ((some ((o.getD .empty).insert nextId)).getD .empty).insert nextId = (o.getD .empty).insert nextId :=
      fun o => SortedSet.insert_insert _ _
    have hold : ((owners.find? v).getD .empty).toList =
        (entries.filter fun e => e.2.relation.vars.contains v).map Prod.fst := by
      rw [← h.owners v]
      cases owners.find? v <;> rfl
    rw [addOwners, KeyMap.find?_foldl_alter _ hidem, List.filter_append, List.map_append]
    by_cases hv : v ∈ c.relation.vars
    · -- the id is above every owner, so it goes last
      have hlt : ∀ y ∈ ((owners.find? v).getD .empty).toList, y < nextId := by
        intro y hy
        rw [hold] at hy
        obtain ⟨e, he, rfl⟩ := List.mem_map.1 hy
        exact h.below e (List.mem_filter.1 he).1
      rw [if_pos hv, Option.map_some, Option.getD_some, SortedSet.toList_insert_of_lt hlt, hold]
      simp [hv]
    · rw [if_neg hv, h.owners v]
      simp [hv]

/-- Removing a live constraint keeps the views. -/
theorem drop (hmem : (id, c) ∈ entries) :
    StoreViews (entries.filter fun e => e.1 != id) (index.erase c.relation)
      (dropOwners owners id c.relation.vars) nextId where
  ascending := h.ascending.sublist (List.filter_sublist.map Prod.fst)
  below := fun e he => h.below e (List.mem_filter.1 he).1
  relations := h.relations.sublist (List.filter_sublist.map _)
  index := by
    intro r
    rw [KeyMap.find?_erase]
    by_cases hr : r = c.relation
    · -- the removed constraint was the only one with its relation
      subst hr
      rw [if_pos rfl, eq_comm, Option.map_eq_none_iff, List.find?_eq_none]
      intro e he her
      obtain ⟨he, hid⟩ := List.mem_filter.1 he
      have heq := h.eq_of_relation he hmem (by simpa using her)
      simp [heq] at hid
    · rw [if_neg hr, h.index r, find?_filter_of_imp]
      intro e he her
      rw [bne_iff_ne]
      intro hid
      have heq := h.eq_of_id he hmem hid
      exact hr (by rw [← (by simpa using her : e.2.relation = r), heq])
  owners := by
    intro v
    rw [dropOwners, KeyMap.find?_foldl_modify _ (fun s => SortedSet.erase_erase s id)]
    by_cases hv : v ∈ c.relation.vars
    · -- the id leaves the owners of the removed constraint's slots
      have herase : (((owners.find? v).map fun s => s.erase id).map SortedSet.toList).getD [] =
          (((owners.find? v).map SortedSet.toList).getD []).filter (· != id) := by
        cases owners.find? v with
        | none => rfl
        | some s => exact SortedSet.toList_erase s id
      rw [if_pos hv, herase, h.owners v, List.filter_map, List.filter_filter, List.filter_filter]
      congr 1
      refine List.filter_congr fun e _ => ?_
      simp only [Function.comp_apply, Bool.and_comm]
    · -- constraints on the slot keep their ids, which are not the removed one's
      rw [if_neg hv, h.owners v, List.filter_filter]
      congr 1
      refine List.filter_congr fun e he => ?_
      by_cases hc : v ∈ e.2.relation.vars
      · have hid : e.1 ≠ id := by
          intro hid
          have heq := h.eq_of_id he hmem hid
          rw [heq] at hc
          exact hv hc
        simp [hc, hid]
      · simp [hc]

end StoreViews

end CheckedPointers
