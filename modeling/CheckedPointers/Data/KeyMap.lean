/-! # Maps read by key only

A hash map is read only through lookups, so its content is a list of pairs, at most one per key,
in an order nothing reads. Setting a key replaces its pair where it stands or appends one, and
erasing a key drops its pair. Every lookup after an update is the lookup before it, but at the
updated key (`find?_alter`, `find?_modify`, `find?_erase`).
-/

namespace CheckedPointers

/-- The pairs of a map read by key only. -/
structure KeyMap (κ ν : Type) where
  toList : List (κ × ν)
  deriving Inhabited

namespace KeyMap

variable {κ ν : Type} [DecidableEq κ]

def empty : KeyMap κ ν := ⟨[]⟩

def find? (m : KeyMap κ ν) (k : κ) : Option ν :=
  (m.toList.find? fun e => e.1 == k).map Prod.snd

/-- Sets the value at `k` to `f` of the value there, if any. -/
def alter (m : KeyMap κ ν) (k : κ) (f : Option ν → ν) : KeyMap κ ν :=
  match m.find? k with
  | none => ⟨m.toList ++ [(k, f none)]⟩
  | some v => ⟨m.toList.map fun e => if e.1 == k then (k, f (some v)) else e⟩

def insert (m : KeyMap κ ν) (k : κ) (v : ν) : KeyMap κ ν := m.alter k fun _ => v

/-- Applies `f` to the value at `k`, when there is one. -/
def modify (m : KeyMap κ ν) (k : κ) (f : ν → ν) : KeyMap κ ν :=
  match m.find? k with
  | none => m
  | some v => m.insert k (f v)

def erase (m : KeyMap κ ν) (k : κ) : KeyMap κ ν := ⟨m.toList.filter fun e => !(e.1 == k)⟩

variable {m : KeyMap κ ν} {k k' : κ}

@[simp] theorem find?_empty (k : κ) : (empty : KeyMap κ ν).find? k = none := rfl

theorem find?_alter (m : KeyMap κ ν) (k k' : κ) (f : Option ν → ν) :
    (m.alter k f).find? k' = if k' = k then some (f (m.find? k)) else m.find? k' := by
  unfold alter
  cases h : m.find? k with
  | none =>
    have hk : m.toList.find? (fun e => e.1 == k) = none := Option.map_eq_none_iff.1 h
    by_cases hkk : k' = k
    · subst hkk
      simp [find?, hk]
    · simp [find?, List.find?_append, Ne.symm hkk, hkk]
  | some v =>
    -- the pairs keep their keys, so a lookup finds the pair it found before, updated
    have hkeys : (fun e : κ × ν => (if e.1 == k then (k, f (some v)) else e).1 == k') =
        fun e => e.1 == k' := by
      funext e
      by_cases he : e.1 = k
      · simp [he]
      · simp [he]
    simp only [find?, List.find?_map, Function.comp_def, hkeys]
    obtain ⟨e, he, hv⟩ := Option.map_eq_some_iff.1 h
    by_cases hkk : k' = k
    · subst hkk
      have hek : e.1 = k' := by simpa using List.find?_some he
      simp [he, hek]
    · cases he' : m.toList.find? (fun e => e.1 == k') with
      | none => simp [hkk]
      | some e' =>
        have hek : e'.1 = k' := by simpa using List.find?_some he'
        simp [hkk, hek]

theorem find?_insert (m : KeyMap κ ν) (k k' : κ) (v : ν) :
    (m.insert k v).find? k' = if k' = k then some v else m.find? k' :=
  find?_alter m k k' _

theorem find?_modify (m : KeyMap κ ν) (k k' : κ) (f : ν → ν) :
    (m.modify k f).find? k' = if k' = k then (m.find? k).map f else m.find? k' := by
  unfold modify
  cases h : m.find? k with
  | none =>
    by_cases hkk : k' = k
    · subst hkk
      simp [h]
    · simp [hkk]
  | some v => simp [find?_insert]

theorem find?_erase (m : KeyMap κ ν) (k k' : κ) :
    (m.erase k).find? k' = if k' = k then none else m.find? k' := by
  unfold erase find?
  by_cases hkk : k' = k
  · subst hkk
    simp only [if_pos]
    rw [Option.map_eq_none_iff, List.find?_eq_none]
    intro e he
    simp only [List.mem_filter, Bool.not_eq_true', beq_eq_false_iff_ne] at he
    simpa using he.2
  · -- a pair found at `k'` is not a pair at `k`, so the filter keeps it
    have hpred : (fun e : κ × ν => decide ((!(e.1 == k)) = true ∧ (e.1 == k') = true)) = fun e => e.1 == k' := by
      funext e
      by_cases he : e.1 = k'
      · simp [he, hkk]
      · simp [he]
    rw [if_neg hkk, List.find?_filter, hpred]

/-- Updating the values at the keys of a list in turn, with an update that a second application
leaves as it is, sets each of those keys once. -/
theorem find?_foldl_alter (f : Option ν → ν) (hf : ∀ o, f (some (f o)) = f o) :
    ∀ (ks : List κ) (m : KeyMap κ ν) (k' : κ),
      (ks.foldl (fun m k => m.alter k f) m).find? k' = if k' ∈ ks then some (f (m.find? k')) else m.find? k'
  | [], m, k' => by simp
  | k :: ks, m, k' => by
    rw [List.foldl_cons, find?_foldl_alter f hf ks, find?_alter]
    by_cases hk : k' = k
    · subst hk
      by_cases hks : k' ∈ ks <;> simp [hks, hf]
    · by_cases hks : k' ∈ ks <;> simp [hk, hks]

theorem find?_foldl_modify (f : ν → ν) (hf : ∀ v, f (f v) = f v) :
    ∀ (ks : List κ) (m : KeyMap κ ν) (k' : κ),
      (ks.foldl (fun m k => m.modify k f) m).find? k' = if k' ∈ ks then (m.find? k').map f else m.find? k'
  | [], m, k' => by simp
  | k :: ks, m, k' => by
    rw [List.foldl_cons, find?_foldl_modify f hf ks, find?_modify]
    by_cases hk : k' = k
    · subst hk
      by_cases hks : k' ∈ ks
      · cases m.find? k' <;> simp [hks, hf]
      · simp [hks]
    · by_cases hks : k' ∈ ks <;> simp [hk, hks]

end KeyMap

end CheckedPointers
