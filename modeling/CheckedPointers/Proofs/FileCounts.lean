import Mathlib
import CheckedPointers.Stats
import CheckedPointers.Proofs.Ascending

/-!
# Counts of solved qualifiers per file

`Program.slotsByFile` walks the declaration keys and adds what the entries at each key reach to
the set of the key's file. The map it builds collects by file (`SortedMap.Collects`): it ascends,
holds a set at the file of every key and at no other, and each set ascends and holds exactly the
slots that the entries at its file's keys reach (`Program.OwnsSlot`), whatever the file's
rewritability.

A row of `Stats.compute` counts the members of one such set one by one, in the column of each
slot's solved qualifier. An ascending set holds no slot twice, so a row counts each slot of its
file once and its total is the sum of its columns; a slot reached from two files is in both sets
and counted in both rows. The summary row adds the rows up (`Stats.compute_counts_each_slot_once`).
-/

namespace CheckedPointers

namespace FileStats

/-- The column that counts the slots solved to `q`. -/
def column (s : FileStats) : Qualifier → Nat
  | .ptr => s.ptr
  | .ntArr => s.ntarr
  | .arr => s.arr
  | .wild => s.wild

variable (s o : FileStats) (q q' : Qualifier)

@[simp] theorem file_add : (s.add q).file = s.file := by cases q <;> rfl

@[simp] theorem constraints_add : (s.add q).constraints = s.constraints + 1 := by cases q <;> rfl

@[simp] theorem column_add : (s.add q).column q' = s.column q' + if q = q' then 1 else 0 := by
  cases q <;> cases q' <;> simp [add, column]

@[simp] theorem file_absorb : (s.absorb o).file = s.file := rfl

@[simp] theorem constraints_absorb : (s.absorb o).constraints = s.constraints + o.constraints := rfl

@[simp] theorem column_absorb : (s.absorb o).column q = s.column q + o.column q := by
  cases q <;> rfl

theorem constraints_add_eq_columns (h : s.constraints = s.ptr + s.ntarr + s.arr + s.wild) :
    (s.add q).constraints = (s.add q).ptr + (s.add q).ntarr + (s.add q).arr + (s.add q).wild := by
  cases q <;> simp only [add] <;> omega

theorem foldl_add (f : Nat → Qualifier) :
    ∀ (l : List Nat) (s : FileStats),
      (l.foldl (fun s v => s.add (f v)) s).file = s.file ∧
      (l.foldl (fun s v => s.add (f v)) s).constraints = s.constraints + l.length ∧
      ∀ q, (l.foldl (fun s v => s.add (f v)) s).column q = s.column q + l.countP (f · = q)
  | [], s => by simp
  | v :: l, s => by
    obtain ⟨hfile, htotal, hcol⟩ := foldl_add f l (s.add (f v))
    refine ⟨by simp [hfile], by simp [htotal]; omega, fun q => ?_⟩
    rw [List.foldl_cons, hcol, column_add, List.countP_cons]
    simp only [decide_eq_true_eq]
    omega

theorem foldl_add_balanced (f : Nat → Qualifier) :
    ∀ (l : List Nat) (s : FileStats), s.constraints = s.ptr + s.ntarr + s.arr + s.wild →
      let r := l.foldl (fun s v => s.add (f v)) s
      r.constraints = r.ptr + r.ntarr + r.arr + r.wild
  | [], _, h => h
  | v :: l, s, h => foldl_add_balanced f l (s.add (f v)) (constraints_add_eq_columns s (f v) h)

theorem foldl_absorb :
    ∀ (rows : List FileStats) (s : FileStats),
      (rows.foldl absorb s).file = s.file ∧
      (rows.foldl absorb s).constraints = s.constraints + (rows.map constraints).sum ∧
      ∀ q, (rows.foldl absorb s).column q = s.column q + (rows.map (column · q)).sum
  | [], s => by simp
  | r :: rows, s => by
    obtain ⟨hfile, htotal, hcol⟩ := foldl_absorb rows (s.absorb r)
    refine ⟨by simp [hfile], by simp [htotal]; omega, fun q => ?_⟩
    simp only [List.foldl_cons, hcol, column_absorb, List.map_cons, List.sum_cons]
    omega

end FileStats

namespace SortedSet

variable {α β : Type} [Ord α] {s t : SortedSet α} {x : α}

theorem Ascending.nodup [Std.ReflOrd α] (h : s.Ascending) : s.toList.Nodup :=
  h.imp fun hlt heq => by rw [heq, Std.ReflOrd.compare_self] at hlt; cases hlt

variable [Std.TransOrd α] [Std.LawfulEqOrd α]

omit [Std.LawfulEqOrd α] in
theorem Ascending.union (h : s.Ascending) (t : SortedSet α) : (s.union t).Ascending := by
  unfold SortedSet.union
  induction t.toList generalizing s with
  | nil => exact h
  | cons y ys ih => exact ih (h.insert y)

omit [Std.TransOrd α] in
theorem mem_union_iff : x ∈ (s.union t).toList ↔ x ∈ s.toList ∨ x ∈ t.toList :=
  ⟨mem_union, fun h => h.elim mem_union_left mem_union_right⟩

theorem foldl_union (f : β → SortedSet α) :
    ∀ (l : List β) (s : SortedSet α), s.Ascending →
      (l.foldl (fun s c => s.union (f c)) s).Ascending ∧
        ∀ x, x ∈ (l.foldl (fun s c => s.union (f c)) s).toList ↔ x ∈ s.toList ∨ ∃ c ∈ l, x ∈ (f c).toList
  | [], s, h => ⟨h, fun x => by simp⟩
  | c :: l, s, h => by
    obtain ⟨hasc, hmem⟩ := foldl_union f l (s.union (f c)) (h.union (f c))
    refine ⟨hasc, fun x => ?_⟩
    rw [List.foldl_cons, hmem, mem_union_iff]
    simp only [List.mem_cons, exists_eq_or_imp]
    exact or_assoc

end SortedSet

namespace SortedMap

variable {κ α β : Type} [Ord κ] [DecidableEq κ] [Std.TransOrd κ] [Std.LawfulEqOrd κ] [Ord α]
  (key : β → κ) (members : β → α → Prop) {m : SortedMap κ (SortedSet α)} {L : List β}

/-- `m` collects the items of `L` by `key`: it ascends, has a set exactly at the keys of the items,
and each of its sets ascends and holds exactly the members that the items with its key bring. -/
structure Collects (m : SortedMap κ (SortedSet α)) (L : List β) : Prop where
  ascending : m.Ascending
  sets : ∀ k s, m.find? k = some s →
    s.Ascending ∧ ∀ v, v ∈ s.toList ↔ ∃ x ∈ L, key x = k ∧ members x v
  keys : ∀ k, (m.find? k).isSome ↔ ∃ x ∈ L, key x = k

omit [DecidableEq κ] [Std.TransOrd κ] [Std.LawfulEqOrd κ] in
theorem collects_empty : Collects key members (empty : SortedMap κ (SortedSet α)) [] :=
  ⟨ascending_empty, fun _ _ h => by simp [find?] at h, fun _ => by simp [find?]⟩

theorem Collects.alter (h : Collects key members m L) (x : β) {grow : SortedSet α → SortedSet α}
    (hgrow : ∀ s : SortedSet α, s.Ascending →
      (grow s).Ascending ∧ ∀ v, v ∈ (grow s).toList ↔ v ∈ s.toList ∨ members x v) :
    Collects key members (m.alter (key x) fun old => grow (old.getD SortedSet.empty)) (L ++ [x]) := by
  have hfind : ∀ k, (m.alter (key x) fun old => grow (old.getD SortedSet.empty)).find? k =
      if k = key x then some (grow ((m.find? k).getD SortedSet.empty)) else m.find? k := by
    intro k
    split
    · next hk => subst hk; exact h.ascending.find?_alter_self _
    · next hk => exact find?_alter_of_ne hk _
  -- the set the key found before, empty when it had none
  have hold : ∀ k, ((m.find? k).getD SortedSet.empty).Ascending ∧
      ∀ v, v ∈ ((m.find? k).getD SortedSet.empty).toList ↔ ∃ y ∈ L, key y = k ∧ members y v := by
    intro k
    cases hm : m.find? k with
    | none =>
      refine ⟨SortedSet.ascending_empty, fun v => ⟨fun hv => by simp at hv, ?_⟩⟩
      rintro ⟨y, hy, rfl, -⟩
      have := (h.keys (key y)).2 ⟨y, hy, rfl⟩
      rw [hm] at this
      cases this
    | some s => exact h.sets k s hm
  -- an item of `L ++ [x]` is an item of `L`, or `x`
  have happend : ∀ P : β → Prop, (∃ y ∈ L ++ [x], P y) ↔ (∃ y ∈ L, P y) ∨ P x := fun P => by
    simp [or_and_right, exists_or]
  refine ⟨h.ascending.alter _ _, fun k s hs => ?_, fun k => ?_⟩
  · rw [hfind] at hs
    split at hs
    · next hk =>
      subst hk
      cases hs
      obtain ⟨hasc, hmem⟩ := hgrow _ (hold (key x)).1
      refine ⟨hasc, fun v => ?_⟩
      rw [hmem, (hold (key x)).2, happend]
      simp
    · next hk =>
      obtain ⟨hasc, hmem⟩ := h.sets k s hs
      refine ⟨hasc, fun v => ?_⟩
      rw [hmem, happend]
      exact (or_iff_left fun hx => hk hx.1.symm).symm
  · rw [hfind]
    split
    · next hk => exact ⟨fun _ => ⟨x, List.mem_append_right _ (List.mem_singleton_self x), hk.symm⟩,
        fun _ => rfl⟩
    · next hk =>
      rw [h.keys k, happend]
      exact (or_iff_left fun hx => hk hx.symm).symm

theorem collects_foldl {g : β → SortedSet α → SortedSet α}
    (hgrow : ∀ x (s : SortedSet α), s.Ascending →
      (g x s).Ascending ∧ ∀ v, v ∈ (g x s).toList ↔ v ∈ s.toList ∨ members x v) :
    ∀ (L' : List β) (m : SortedMap κ (SortedSet α)) (L : List β), Collects key members m L →
      Collects key members
        (L'.foldl (fun m x => m.alter (key x) fun old => g x (old.getD SortedSet.empty)) m) (L ++ L')
  | [], _, L, h => by simpa using h
  | x :: rest, m, L, h => by
    simpa using collects_foldl hgrow rest _ (L ++ [x]) (h.alter key members x (hgrow x))

omit [DecidableEq κ] [Std.TransOrd κ] in
theorem Collects.mem_iff (h : Collects key members m L) {k : κ} {s : SortedSet α} :
    (k, s) ∈ m.toList ↔ m.find? k = some s :=
  h.ascending.find?_eq_some_iff.symm

end SortedMap

namespace Program

/-- The slot `v` is reached from an entry recorded at a key of `file`. -/
def OwnsSlot (p : Program) (file : String) (v : Nat) : Prop :=
  ∃ e ∈ p.entriesAt.toList, e.1.file = file ∧ ∃ c ∈ e.2.toList, v ∈ (p.arena.varsOf c).toList

theorem slotsByFile_collects (p : Program) :
    SortedMap.Collects (fun e : DeclKey × SortedSet Nat => e.1.file)
      (fun e v => ∃ c ∈ e.2.toList, v ∈ (p.arena.varsOf c).toList) p.slotsByFile p.entriesAt.toList := by
  have h := SortedMap.collects_foldl (fun e : DeclKey × SortedSet Nat => e.1.file)
    (fun e v => ∃ c ∈ e.2.toList, v ∈ (p.arena.varsOf c).toList)
    (g := fun e s => e.2.toList.foldl (fun s c => s.union (p.arena.varsOf c)) s)
    (fun e s hs => SortedSet.foldl_union (fun c => p.arena.varsOf c) e.2.toList s hs)
    p.entriesAt.toList SortedMap.empty [] (SortedMap.collects_empty _ _)
  rw [List.nil_append] at h
  exact h

theorem slotsByFile_sets (p : Program) {file : String} {slots : SortedSet Nat}
    (h : (file, slots) ∈ p.slotsByFile.toList) :
    slots.toList.Nodup ∧ ∀ v, v ∈ slots.toList ↔ p.OwnsSlot file v := by
  have hc := slotsByFile_collects p
  obtain ⟨hasc, hmem⟩ := hc.sets file slots (hc.mem_iff.1 h)
  refine ⟨hasc.nodup, fun v => ?_⟩
  rw [hmem, OwnsSlot]

theorem slotsByFile_files (p : Program) (file : String) :
    file ∈ p.slotsByFile.keys ↔ ∃ e ∈ p.entriesAt.toList, e.1.file = file := by
  have hc := slotsByFile_collects p
  rw [← hc.keys file, Option.isSome_iff_exists]
  simp only [SortedMap.keys, List.mem_map, Prod.exists, exists_and_right, exists_eq_right]
  exact exists_congr fun s => hc.mem_iff

end Program

namespace Stats

theorem compute_files (p : Program) :
    (compute p).files = p.slotsByFile.toList.map fun e =>
      e.2.toList.foldl (fun s v => s.add (p.store.assignment v)) { file := e.1 } := rfl

theorem compute_files_ascending (p : Program) :
    ((compute p).files.map FileStats.file).Pairwise (fun a b => compare a b = .lt) ∧
      ∀ file, file ∈ (compute p).files.map FileStats.file ↔ ∃ e ∈ p.entriesAt.toList, e.1.file = file := by
  have hfiles : (compute p).files.map FileStats.file = p.slotsByFile.keys := by
    rw [compute_files, List.map_map, SortedMap.keys]
    exact List.map_congr_left fun e _ => (FileStats.foldl_add _ _ _).1
  rw [hfiles]
  refine ⟨?_, Program.slotsByFile_files p⟩
  exact List.pairwise_map.2 (Program.slotsByFile_collects p).ascending

theorem compute_rows (p : Program) :
    ∀ r ∈ (compute p).files, ∃ slots : List Nat, slots.Nodup ∧ (∀ v, v ∈ slots ↔ p.OwnsSlot r.file v) ∧
      r.constraints = slots.length ∧ (∀ q, r.column q = slots.countP (p.store.assignment · = q)) ∧
      r.constraints = r.ptr + r.ntarr + r.arr + r.wild := by
  intro r hr
  rw [compute_files] at hr
  obtain ⟨⟨file, slots⟩, he, rfl⟩ := List.mem_map.1 hr
  obtain ⟨hfile, htotal, hcol⟩ := FileStats.foldl_add (p.store.assignment) slots.toList { file := file }
  obtain ⟨hnodup, hmem⟩ := Program.slotsByFile_sets p he
  refine ⟨slots.toList, hnodup, fun v => ?_, by simpa using htotal, fun q => ?_, ?_⟩
  · rw [hfile]
    exact hmem v
  · rw [hcol]
    cases q <;> simp [FileStats.column]
  · exact FileStats.foldl_add_balanced _ slots.toList _ rfl

theorem compute_summary (p : Program) :
    (compute p).summary.file = "Summary" ∧
      (compute p).summary.constraints = ((compute p).files.map FileStats.constraints).sum ∧
      ∀ q, (compute p).summary.column q = ((compute p).files.map (FileStats.column · q)).sum := by
  have hsum : (compute p).summary = (compute p).files.foldl FileStats.absorb { file := "Summary" } := rfl
  obtain ⟨hfile, htotal, hcol⟩ := FileStats.foldl_absorb (compute p).files { file := "Summary" }
  rw [hsum]
  refine ⟨hfile, by simpa using htotal, fun q => ?_⟩
  rw [hcol]
  cases q <;> simp [FileStats.column]

/-- Each row of the statistics counts every slot its file's entries reach once, in the column of its
solved qualifier, and the summary row sums the rows. -/
theorem compute_counts_each_slot_once (p : Program) :
    ((compute p).files.map FileStats.file).Pairwise (fun a b => compare a b = .lt) ∧
    (∀ file, file ∈ (compute p).files.map FileStats.file ↔ ∃ e ∈ p.entriesAt.toList, e.1.file = file) ∧
    (∀ r ∈ (compute p).files, ∃ slots : List Nat, slots.Nodup ∧ (∀ v, v ∈ slots ↔ p.OwnsSlot r.file v) ∧
      r.constraints = slots.length ∧ (∀ q, r.column q = slots.countP (p.store.assignment · = q)) ∧
      r.constraints = r.ptr + r.ntarr + r.arr + r.wild) ∧
    (compute p).summary.file = "Summary" ∧
    (compute p).summary.constraints = ((compute p).files.map FileStats.constraints).sum ∧
    ∀ q, (compute p).summary.column q = ((compute p).files.map (FileStats.column · q)).sum :=
  ⟨(compute_files_ascending p).1, (compute_files_ascending p).2, compute_rows p, compute_summary p⟩

end Stats

end CheckedPointers
