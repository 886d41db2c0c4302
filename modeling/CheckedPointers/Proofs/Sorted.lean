import CheckedPointers.Data.Sorted

/-!
# What sorted sets and maps hold after an update

Read off their lists: an insertion adds at most the inserted element, a union holds what its two
sides hold, and an update of a map changes at most the entry at the updated key, to the
function's value on what was there. These facts go one way and need nothing of the order; they
are what an invariant over every member, or every entry, of a collection needs. The other way, an
insertion into a set keeps its members and, when the order identifies equal elements, holds the
inserted one.
-/

namespace CheckedPointers

namespace SortedSet

variable {α : Type} [Ord α] {x y : α} {s t : SortedSet α}

@[simp] theorem toList_empty : (empty : SortedSet α).toList = [] := rfl

@[simp] theorem toList_singleton (y : α) : (singleton y).toList = [y] := rfl

theorem mem_insertList {l : List α} (h : x ∈ insertList y l) : x = y ∨ x ∈ l := by
  induction l with
  | nil => simpa [insertList] using h
  | cons z zs ih =>
    unfold insertList at h
    split at h
    · simpa using h
    · exact .inr h
    · rcases List.mem_cons.1 h with rfl | h
      · exact .inr List.mem_cons_self
      · rcases ih h with h | h
        · exact .inl h
        · exact .inr (List.mem_cons_of_mem _ h)

theorem mem_insert (h : x ∈ (s.insert y).toList) : x = y ∨ x ∈ s.toList := mem_insertList h

theorem mem_foldl_insert {l : List α} (h : x ∈ (l.foldl insert s).toList) : x ∈ s.toList ∨ x ∈ l := by
  induction l generalizing s with
  | nil => exact .inl h
  | cons z zs ih =>
    rcases ih h with h | h
    · rcases mem_insert h with rfl | h
      · exact .inr List.mem_cons_self
      · exact .inl h
    · exact .inr (List.mem_cons_of_mem _ h)

theorem mem_union (h : x ∈ (s.union t).toList) : x ∈ s.toList ∨ x ∈ t.toList := mem_foldl_insert h

theorem mem_ofList {l : List α} (h : x ∈ (ofList l).toList) : x ∈ l := by
  rcases mem_foldl_insert h with h | h
  · cases h
  · exact h

/-! The other way: an insertion keeps what was there, and under a lawful order it holds what it
inserted. -/

theorem mem_insertList_of_mem {l : List α} (h : x ∈ l) : x ∈ insertList y l := by
  induction l with
  | nil => cases h
  | cons z zs ih =>
    unfold insertList
    split
    · exact List.mem_cons_of_mem _ h
    · exact h
    · rcases List.mem_cons.1 h with rfl | h
      · exact List.mem_cons_self
      · exact List.mem_cons_of_mem _ (ih h)

theorem mem_insertList_self [Std.LawfulEqOrd α] (l : List α) : y ∈ insertList y l := by
  induction l with
  | nil => exact List.mem_singleton_self y
  | cons z zs ih =>
    unfold insertList
    split
    · exact List.mem_cons_self
    · next h =>
      rw [Std.LawfulEqOrd.eq_of_compare h]
      exact List.mem_cons_self
    · exact List.mem_cons_of_mem _ ih

theorem mem_foldl_insert_of_mem {l : List α} (h : x ∈ s.toList) : x ∈ (l.foldl insert s).toList := by
  induction l generalizing s with
  | nil => exact h
  | cons z zs ih => exact ih (mem_insertList_of_mem h)

theorem mem_union_left (h : x ∈ s.toList) : x ∈ (s.union t).toList := mem_foldl_insert_of_mem h

theorem mem_union_right [Std.LawfulEqOrd α] (h : x ∈ t.toList) : x ∈ (s.union t).toList := by
  obtain ⟨l⟩ := t
  unfold union
  dsimp only at h ⊢
  induction l generalizing s with
  | nil => cases h
  | cons z zs ih =>
    rw [List.foldl_cons]
    rcases List.mem_cons.1 h with rfl | h
    · exact mem_foldl_insert_of_mem (mem_insertList_self _)
    · exact ih h

theorem mem_ofList_of_mem [Std.LawfulEqOrd α] {l : List α} (h : x ∈ l) : x ∈ (ofList l).toList := by
  unfold ofList
  generalize (empty : SortedSet α) = s
  induction l generalizing s with
  | nil => cases h
  | cons z zs ih =>
    rw [List.foldl_cons]
    rcases List.mem_cons.1 h with rfl | h
    · exact mem_foldl_insert_of_mem (mem_insertList_self _)
    · exact ih h _

end SortedSet

namespace SortedMap

variable {κ ν : Type} [Ord κ] {k : κ} {v : ν} {e : κ × ν} {m : SortedMap κ ν}

@[simp] theorem toList_empty : (empty : SortedMap κ ν).toList = [] := rfl

theorem mem_of_find? (h : m.find? k = some v) : ∃ k', (k', v) ∈ m.toList ∧ compare k k' = .eq := by
  obtain ⟨e, he, rfl⟩ := Option.map_eq_some_iff.1 h
  exact ⟨e.1, List.mem_of_find?_eq_some he, by simpa using List.find?_some he⟩

theorem find?_isSome_of_mem (h : (k, v) ∈ m.toList) (hk : compare k k = .eq) : (m.find? k).isSome := by
  simp only [find?, Option.isSome_map, List.find?_isSome]
  exact ⟨(k, v), h, by simpa using hk⟩

theorem mem_alterList {f : Option ν → ν} {l : List (κ × ν)} (h : e ∈ alterList k f l) :
    e ∈ l ∨ (e.1 = k ∧ e.2 = f none) ∨ ∃ w, (e.1, w) ∈ l ∧ compare k e.1 = .eq ∧ e.2 = f (some w) := by
  induction l with
  | nil => simp only [alterList, List.mem_singleton] at h; exact .inr (.inl (by rw [h]; simp))
  | cons x xs ih =>
    unfold alterList at h
    split at h
    · rcases List.mem_cons.1 h with rfl | h
      · exact .inr (.inl ⟨rfl, rfl⟩)
      · exact .inl h
    · next hc =>
      rcases List.mem_cons.1 h with rfl | h
      · exact .inr (.inr ⟨x.2, List.mem_cons_self, hc, rfl⟩)
      · exact .inl (List.mem_cons_of_mem _ h)
    · rcases List.mem_cons.1 h with rfl | h
      · exact .inl List.mem_cons_self
      · rcases ih h with h | h | ⟨w, hw, hc, he⟩
        · exact .inl (List.mem_cons_of_mem _ h)
        · exact .inr (.inl h)
        · exact .inr (.inr ⟨w, List.mem_cons_of_mem _ hw, hc, he⟩)

theorem mem_alter {f : Option ν → ν} (h : e ∈ (m.alter k f).toList) :
    e ∈ m.toList ∨ (e.1 = k ∧ e.2 = f none) ∨
      ∃ w, (e.1, w) ∈ m.toList ∧ compare k e.1 = .eq ∧ e.2 = f (some w) :=
  mem_alterList h

theorem mem_alter_snd {f : Option ν → ν} (h : e ∈ (m.alter k f).toList) :
    e ∈ m.toList ∨ e.2 = f none ∨ ∃ k' w, (k', w) ∈ m.toList ∧ e.2 = f (some w) := by
  rcases mem_alter h with h | ⟨-, h⟩ | ⟨w, hw, -, h⟩
  · exact .inl h
  · exact .inr (.inl h)
  · exact .inr (.inr ⟨e.1, w, hw, h⟩)

theorem mem_insert (h : e ∈ (m.insert k v).toList) : e ∈ m.toList ∨ e.2 = v := by
  rcases mem_alter_snd h with h | h | ⟨-, -, -, h⟩
  · exact .inl h
  · exact .inr h
  · exact .inr h

theorem mem_insert_key (h : e ∈ (m.insert k v).toList) :
    e ∈ m.toList ∨ ((e.1 = k ∨ compare k e.1 = .eq) ∧ e.2 = v) := by
  rcases mem_alter h with h | ⟨h1, h2⟩ | ⟨-, -, hc, h2⟩
  · exact .inl h
  · exact .inr ⟨.inl h1, h2⟩
  · exact .inr ⟨.inr hc, h2⟩

theorem mem_insertIfAbsent (h : e ∈ (m.insertIfAbsent k v).toList) : e ∈ m.toList ∨ e = (k, v) := by
  rcases mem_alter h with h | ⟨h1, h2⟩ | ⟨w, hw, -, h2⟩
  · exact .inl h
  · exact .inr (Prod.ext h1 h2)
  · left
    have : e = (e.1, w) := Prod.ext rfl h2
    rw [this]
    exact hw

theorem mem_values {w : ν} : w ∈ m.values ↔ ∃ k, (k, w) ∈ m.toList := by
  simp [values]

theorem find?_insert_self [Std.ReflOrd κ] : (m.insert k v).find? k = some v := by
  unfold insert alter find?
  induction m.toList with
  | nil => simp [alterList, Std.ReflOrd.compare_self]
  | cons e rest ih =>
    unfold alterList
    split
    · simp [Std.ReflOrd.compare_self]
    · next hc => simp [hc]
    · next hc => simpa [hc] using ih

theorem find?_alter_of_ne [Std.LawfulEqOrd κ] {k' : κ} (h : k ≠ k') (f : Option ν → ν) :
    (m.alter k' f).find? k = m.find? k := by
  -- a key equal to the updated one is not `k`
  have hne : ∀ x, compare k' x = .eq → compare k x ≠ .eq := fun x h1 h2 =>
    h ((Std.LawfulEqOrd.eq_of_compare h2).trans (Std.LawfulEqOrd.eq_of_compare h1).symm)
  unfold alter find?
  induction m.toList with
  | nil => simp [alterList, h]
  | cons e rest ih =>
    unfold alterList
    split
    · simp [h]
    · next hc => simp [hne _ hc]
    · by_cases he : compare k e.1 = .eq
      · simp [he]
      · simpa [he] using ih

theorem contains_alter [Std.LawfulEqOrd κ] {k' : κ} (f : Option ν → ν) :
    (m.alter k f).contains k' = true ↔ k' = k ∨ m.contains k' = true := by
  simp only [contains, alter, find?, Option.isSome_map, List.find?_isSome, beq_iff_eq,
    Std.compare_eq_iff_eq]
  induction m.toList with
  | nil => simp [alterList]
  | cons x rest ih =>
    unfold alterList
    split
    · simp
    · next hc =>
      rw [Std.compare_eq_iff_eq] at hc
      simp [hc]
    · simp only [List.mem_cons, exists_eq_or_imp, ih]
      exact or_left_comm

theorem contains_insertIfAbsent [Std.LawfulEqOrd κ] {k' : κ} :
    (m.insertIfAbsent k v).contains k' = true ↔ k' = k ∨ m.contains k' = true :=
  contains_alter _

end SortedMap

end CheckedPointers
