import Mathlib.Data.List.Nodup
import Mathlib.Data.List.Perm.Subperm
import Mathlib.Logic.Relation
import Mathlib.Logic.Function.Iterate
import CheckedPointers.UnionFind
import CheckedPointers.Proofs.UnifyTable

/-!
# Union by rank keeps the classes of the joined keys

A union-find over the keys `0 … n-1` is a `Forest`: parents stay among the keys, and a key that is
not a root has a parent of strictly higher rank. `find` follows parents `n` times, stopping at a
root; since a root is its own parent that is the `n`-th parent (`findAux_eq_iterate`). Ranks rise
strictly along a walk that meets no root, so such a walk visits distinct keys, of which there are
`n`: after `n` steps the walk stands on a root (`Forest.isRoot_find`), and the root reached from
a key is the only one its walk meets (`Forest.find_eq_of_iterate`).

A union redirects one root to another, raising a rank only where it keeps the forest ranked, and
every key whose root was the redirected one now finds the other (`Forest.union`). So after joining
the pairs of a relation one by one, two keys find the same root exactly when the equivalence
closure of the relation relates them, and each key's root is in its class (`Joined`): union by
rank is a lawful unification table.
-/

namespace CheckedPointers

namespace UnionFind

variable {uf : UnionFind} {n x y : Nat}

/-- The parent of a key; a key outside the forest is its own. -/
def parentOf (uf : UnionFind) (x : Nat) : Nat := uf.parent.getD x x

/-- The rank of a key; a key outside the forest has rank 0. -/
def rankOf (uf : UnionFind) (x : Nat) : Nat := uf.rank.getD x 0

/-- A key that is its own parent. -/
def IsRoot (uf : UnionFind) (x : Nat) : Prop := uf.parentOf x = x

theorem findAux_eq_iterate (uf : UnionFind) : ∀ fuel x, uf.findAux fuel x = uf.parentOf^[fuel] x
  | 0, _ => rfl
  | fuel + 1, x => by
    rw [findAux, Function.iterate_succ_apply]
    split
    · next h =>
      have hx : uf.parentOf x = x := beq_iff_eq.1 h
      rw [hx, Function.iterate_fixed hx]
    · exact findAux_eq_iterate uf fuel _

theorem find_eq_iterate (uf : UnionFind) (x : Nat) : uf.find x = uf.parentOf^[uf.parent.size] x :=
  uf.findAux_eq_iterate _ x

theorem find_of_isRoot (h : uf.IsRoot x) : uf.find x = x := by
  rw [find_eq_iterate, Function.iterate_fixed h]

/-- Parents stay among the keys `0 … n-1`, and every key that is not a root has a parent of higher
rank. -/
structure Forest (uf : UnionFind) (n : Nat) : Prop where
  size_parent : uf.parent.size = n
  size_rank : uf.rank.size = n
  parent_lt : ∀ x < n, uf.parentOf x < n
  rank_lt : ∀ x < n, uf.parentOf x ≠ x → uf.rankOf x < uf.rankOf (uf.parentOf x)

theorem forest_create (n : Nat) : (create n).Forest n where
  size_parent := Array.size_range
  size_rank := Array.size_replicate
  parent_lt x hx := by simp [parentOf, create, hx]
  rank_lt x hx hne := absurd (by simp [parentOf, create, hx]) hne

namespace Forest

variable (h : uf.Forest n)
include h

theorem iterate_lt (hx : x < n) : ∀ k, uf.parentOf^[k] x < n
  | 0 => hx
  | k + 1 => by
    rw [Function.iterate_succ_apply']
    exact h.parent_lt _ (iterate_lt hx k)

theorem rank_iterate_lt (hx : x < n) {j : Nat}
    (hnr : ∀ i < j, ¬ uf.IsRoot (uf.parentOf^[i] x)) :
    ∀ i < j, uf.rankOf (uf.parentOf^[i] x) < uf.rankOf (uf.parentOf^[j] x) := by
  induction j with
  | zero => intro i hi; omega
  | succ j ih =>
    intro i hi
    have hstep : uf.rankOf (uf.parentOf^[j] x) < uf.rankOf (uf.parentOf^[j + 1] x) := by
      rw [Function.iterate_succ_apply']
      exact h.rank_lt _ (h.iterate_lt hx j) (hnr j (by omega))
    rcases Nat.lt_succ_iff_lt_or_eq.1 hi with hi | rfl
    · exact Nat.lt_trans (ih (fun i hi' => hnr i (by omega)) i hi) hstep
    · exact hstep

theorem isRoot_iterate (hx : x < n) : uf.IsRoot (uf.parentOf^[n] x) := by
  by_contra hne
  -- a root met on the way would be where the walk stays
  have hnr : ∀ i ≤ n, ¬ uf.IsRoot (uf.parentOf^[i] x) := by
    intro i hi hr
    apply hne
    rw [show n = (n - i) + i by omega, Function.iterate_add_apply, Function.iterate_fixed hr]
    exact hr
  have hinj : ∀ i ∈ List.range (n + 1), ∀ j ∈ List.range (n + 1),
      uf.parentOf^[i] x = uf.parentOf^[j] x → i = j := by
    intro i hi j hj hij
    simp only [List.mem_range] at hi hj
    rcases Nat.lt_trichotomy i j with hlt | heq | hgt
    · have := rank_iterate_lt h hx (j := j) (fun k hk => hnr k (by omega)) i hlt
      rw [hij] at this
      exact absurd this (Nat.lt_irrefl _)
    · exact heq
    · have := rank_iterate_lt h hx (j := i) (fun k hk => hnr k (by omega)) j hgt
      rw [hij] at this
      exact absurd this (Nat.lt_irrefl _)
  have hnodup : ((List.range (n + 1)).map fun i => uf.parentOf^[i] x).Nodup :=
    List.Nodup.map_on hinj List.nodup_range
  have hsub : ((List.range (n + 1)).map fun i => uf.parentOf^[i] x) ⊆ List.range n := by
    intro y hy
    obtain ⟨i, -, rfl⟩ := List.mem_map.1 hy
    exact List.mem_range.2 (h.iterate_lt hx i)
  have hlen := (List.Nodup.subperm hnodup hsub).length_le
  simp only [List.length_map, List.length_range] at hlen
  omega

theorem find_eq_iterate' : uf.find x = uf.parentOf^[n] x := by
  rw [find_eq_iterate, h.size_parent]

theorem isRoot_find (hx : x < n) : uf.IsRoot (uf.find x) := by
  rw [h.find_eq_iterate']
  exact h.isRoot_iterate hx

theorem find_lt (hx : x < n) : uf.find x < n := by
  rw [h.find_eq_iterate']
  exact h.iterate_lt hx n

/-- The root a key finds is the root its walk meets. -/
theorem find_eq_of_iterate (hx : x < n) {k r : Nat} (hk : uf.parentOf^[k] x = r)
    (hr : uf.IsRoot r) : uf.find x = r := by
  have hroot := h.isRoot_iterate hx
  calc uf.find x = uf.parentOf^[k] (uf.parentOf^[n] x) := by
        rw [h.find_eq_iterate', Function.iterate_fixed hroot]
    _ = uf.parentOf^[n] (uf.parentOf^[k] x) := by
        rw [← Function.iterate_add_apply, Nat.add_comm, Function.iterate_add_apply]
    _ = r := by rw [hk, Function.iterate_fixed hr]

end Forest

theorem parentOf_redirect {d t : Nat} (hd : d < uf.parent.size) (rank : Array Nat) (x : Nat) :
    (⟨uf.parent.setIfInBounds d t, rank⟩ : UnionFind).parentOf x = if x = d then t else uf.parentOf x := by
  simp only [parentOf, Array.getD_eq_getD_getElem?, Array.getElem?_setIfInBounds]
  by_cases hx : x = d
  · subst hx
    simp [hd]
  · simp [Ne.symm hx, hx]

section Link

variable {d t : Nat} {rank : Array Nat}

theorem iterate_redirect_of_ne (hd : d < uf.parent.size)
    (hz : ∀ k, uf.parentOf^[k] x ≠ d) :
    ∀ k, (⟨uf.parent.setIfInBounds d t, rank⟩ : UnionFind).parentOf^[k] x = uf.parentOf^[k] x
  | 0 => rfl
  | k + 1 => by
    rw [Function.iterate_succ_apply', Function.iterate_succ_apply',
      iterate_redirect_of_ne hd hz k, parentOf_redirect hd, if_neg (hz k)]

theorem iterate_redirect (rank : Array Nat) (hd : d < uf.parent.size) (hrt : uf.IsRoot t) (hdt : d ≠ t) :
    ∀ k, (⟨uf.parent.setIfInBounds d t, rank⟩ : UnionFind).parentOf^[k] x = uf.parentOf^[k] x ∨
      (⟨uf.parent.setIfInBounds d t, rank⟩ : UnionFind).parentOf^[k] x = t
  | 0 => .inl rfl
  | k + 1 => by
    simp only [Function.iterate_succ_apply']
    rcases iterate_redirect rank hd hrt hdt k with hk | hk <;> rw [hk, parentOf_redirect hd]
    · by_cases hkd : uf.parentOf^[k] x = d
      · exact .inr (if_pos hkd)
      · exact .inl (if_neg hkd)
    · rw [if_neg (Ne.symm hdt)]
      exact .inr hrt

theorem Forest.link (h : uf.Forest n) (hd : d < n) (ht : t < n) (hdt : d ≠ t)
    (hrd : uf.IsRoot d) (hrt : uf.IsRoot t) (hsize : rank.size = n)
    (hkeep : ∀ x, x ≠ t → rank.getD x 0 = uf.rankOf x) (hle : uf.rankOf t ≤ rank.getD t 0)
    (hlt : rank.getD d 0 < rank.getD t 0) :
    (⟨uf.parent.setIfInBounds d t, rank⟩ : UnionFind).Forest n ∧
      ∀ z < n, (⟨uf.parent.setIfInBounds d t, rank⟩ : UnionFind).find z =
        if uf.find z = d then t else uf.find z := by
  have hd' : d < uf.parent.size := h.size_parent ▸ hd
  have hpar := parentOf_redirect (t := t) hd' rank
  -- ranks rise along every new parent: at `d` by `hlt`, elsewhere as before
  have hforest : (⟨uf.parent.setIfInBounds d t, rank⟩ : UnionFind).Forest n := by
    refine ⟨by simp [h.size_parent], hsize, fun x hx => ?_, fun x hx hne => ?_⟩
    · rw [hpar]
      split
      · exact ht
      · exact h.parent_lt x hx
    · simp only [rankOf]
      rw [hpar] at hne ⊢
      split
      · next hxd => rw [hxd]; exact hlt
      · next hxd =>
        rw [if_neg hxd] at hne
        have hxt : x ≠ t := fun hxt => hne (hxt ▸ hrt)
        rw [hkeep x hxt]
        by_cases hpt : uf.parentOf x = t
        · rw [hpt]
          exact Nat.lt_of_lt_of_le (hpt ▸ h.rank_lt x hx hne) hle
        · rw [hkeep _ hpt]
          exact h.rank_lt x hx hne
  refine ⟨hforest, fun z hz => ?_⟩
  have hrt' : (⟨uf.parent.setIfInBounds d t, rank⟩ : UnionFind).IsRoot t := by
    show (⟨uf.parent.setIfInBounds d t, rank⟩ : UnionFind).parentOf t = t
    rw [hpar, if_neg (Ne.symm hdt)]
    exact hrt
  split
  · -- the walk from `z` meets `d`, and one step later `t`
    next hzd =>
    have hreach := h.find_eq_iterate'.symm.trans hzd
    rcases iterate_redirect rank (x := z) hd' hrt hdt (n + 1) with hk | hk
    · have hstep : uf.parentOf^[n + 1] z = d := by
        rw [Function.iterate_succ_apply', hreach]
        exact hrd
      refine hforest.find_eq_of_iterate hz (k := n + 2) ?_ hrt'
      rw [Function.iterate_succ_apply', hk, hstep, hpar, if_pos rfl]
    · exact hforest.find_eq_of_iterate hz hk hrt'
  · -- the walk from `z` never meets `d`: its root is not `d`
    next hzd =>
    have hnever : ∀ k, uf.parentOf^[k] z ≠ d := fun k hk => hzd (h.find_eq_of_iterate hz hk hrd)
    rw [hforest.find_eq_iterate', iterate_redirect_of_ne hd' hnever, ← h.find_eq_iterate']

end Link

/-- A union keeps the forest, and redirects the root of one key to the root of the other: every
key that found the redirected root now finds the other. -/
theorem Forest.union (h : uf.Forest n) {a b : Nat} (ha : a < n) (hb : b < n) :
    (uf.union a b).Forest n ∧ ∃ d t, ((d = uf.find a ∧ t = uf.find b) ∨ (d = uf.find b ∧ t = uf.find a)) ∧
      ∀ z < n, (uf.union a b).find z = if uf.find z = d then t else uf.find z := by
  have hra := h.isRoot_find ha
  have hrb := h.isRoot_find hb
  have hla := h.find_lt ha
  have hlb := h.find_lt hb
  have hrank : ∀ x, x < n → x < uf.rank.size := fun x hx => h.size_rank ▸ hx
  unfold UnionFind.union
  dsimp only
  split
  · next heq =>
    refine ⟨h, uf.find a, uf.find a, .inl ⟨rfl, (beq_iff_eq.1 heq).symm ▸ rfl⟩, fun z _ => ?_⟩
    split <;> simp_all
  · next hne =>
    have hne : uf.find a ≠ uf.find b := fun e => hne (beq_iff_eq.2 e)
    split
    · -- the root of `b` is redirected to the higher-ranked root of `a`
      next hgt =>
      obtain ⟨hf, hz⟩ := h.link hlb hla (Ne.symm hne) hrb hra h.size_rank (fun _ _ => rfl)
        (Nat.le_refl _) hgt
      exact ⟨hf, uf.find b, uf.find a, .inr ⟨rfl, rfl⟩, hz⟩
    · split
      · next _ hlt =>
        obtain ⟨hf, hz⟩ := h.link hla hlb hne hra hrb h.size_rank (fun _ _ => rfl)
          (Nat.le_refl _) hlt
        exact ⟨hf, uf.find a, uf.find b, .inl ⟨rfl, rfl⟩, hz⟩
      · -- equal ranks: the root of `b` is raised by one
        next hge hle =>
        have hkeep : ∀ x, x ≠ uf.find b →
            (uf.rank.setIfInBounds (uf.find b) (uf.rank.getD (uf.find b) 0 + 1)).getD x 0 = uf.rankOf x := by
          intro x hx
          simp [rankOf, Array.getD_eq_getD_getElem?, Ne.symm hx]
        have htop : (uf.rank.setIfInBounds (uf.find b) (uf.rank.getD (uf.find b) 0 + 1)).getD (uf.find b) 0 =
            uf.rankOf (uf.find b) + 1 := by
          simp [rankOf, Array.getD_eq_getD_getElem?, hrank _ hlb]
        obtain ⟨hf, hz⟩ := h.link hla hlb hne hra hrb (by simp [h.size_rank]) hkeep
          (by rw [htop]; exact Nat.le_succ _)
          (by rw [htop, hkeep _ hne]; simp only [rankOf]; omega)
        exact ⟨hf, uf.find a, uf.find b, .inl ⟨rfl, rfl⟩, hz⟩

/-! ## The classes of a relation -/

/-- The union-find has joined the pairs of `E`, all among its keys: it is a forest, the two keys
of each pair find one root, and each key's root is in its class. -/
structure Joined (uf : UnionFind) (n : Nat) (E : Nat → Nat → Prop) : Prop where
  forest : uf.Forest n
  lt : ∀ a b, E a b → a < n ∧ b < n
  pair : ∀ a b, E a b → uf.find a = uf.find b
  root : ∀ x < n, Relation.EqvGen E x (uf.find x)

theorem joined_create (n : Nat) : (create n).Joined n fun _ _ => False where
  forest := forest_create n
  lt _ _ h := h.elim
  pair _ _ h := h.elim
  root x hx := by
    rw [find_of_isRoot (by simp [IsRoot, parentOf, create, hx])]
    exact Relation.EqvGen.refl x

theorem Joined.find_eq_iff {E : Nat → Nat → Prop} (h : uf.Joined n E) (hx : x < n) (hy : y < n) :
    uf.find x = uf.find y ↔ Relation.EqvGen E x y := by
  constructor
  · intro hxy
    exact Relation.EqvGen.trans _ _ _ (h.root x hx) (hxy ▸ Relation.EqvGen.symm _ _ (h.root y hy))
  · intro hxy
    -- keys that find one root form an equivalence that contains every pair
    have heqv : Equivalence fun a b => uf.find a = uf.find b :=
      ⟨fun _ => rfl, fun h => h.symm, fun h h' => h.trans h'⟩
    exact heqv.eqvGen_iff.1 (Relation.EqvGen.mono (fun a b hab => h.pair a b hab) _ _ hxy)

theorem Joined.congr {E E' : Nat → Nat → Prop} (h : uf.Joined n E) (hE : ∀ a b, E a b ↔ E' a b) :
    uf.Joined n E' := by
  have : E = E' := funext fun a => funext fun b => propext (hE a b)
  exact this ▸ h

/-- Joining one more pair keeps the classes those of the relation with the pair added. -/
theorem Joined.union {E : Nat → Nat → Prop} (h : uf.Joined n E) {a b : Nat} (ha : a < n) (hb : b < n) :
    (uf.union a b).Joined n fun x y => E x y ∨ (x = a ∧ y = b) := by
  obtain ⟨hf, d, t, hdt, hz⟩ := h.forest.union ha hb
  have hmono : ∀ x y, Relation.EqvGen E x y → Relation.EqvGen (fun x y => E x y ∨ (x = a ∧ y = b)) x y :=
    fun x y hxy => Relation.EqvGen.mono (fun _ _ h => Or.inl h) x y hxy
  -- the two roots that were merged are related once the pair is added
  have hab : Relation.EqvGen (fun x y => E x y ∨ (x = a ∧ y = b)) (uf.find a) (uf.find b) :=
    Relation.EqvGen.trans _ _ _ (Relation.EqvGen.symm _ _ (hmono _ _ (h.root a ha)))
      (Relation.EqvGen.trans _ _ _ (Relation.EqvGen.rel _ _ (.inr ⟨rfl, rfl⟩)) (hmono _ _ (h.root b hb)))
  have hdt' : Relation.EqvGen (fun x y => E x y ∨ (x = a ∧ y = b)) d t := by
    rcases hdt with ⟨rfl, rfl⟩ | ⟨rfl, rfl⟩
    · exact hab
    · exact Relation.EqvGen.symm _ _ hab
  have hlt : ∀ x y, (E x y ∨ (x = a ∧ y = b)) → x < n ∧ y < n := by
    rintro x y (hxy | ⟨rfl, rfl⟩)
    · exact h.lt x y hxy
    · exact ⟨ha, hb⟩
  refine ⟨hf, hlt, fun x y hxy => ?_, fun x hx => ?_⟩
  · obtain ⟨hx, hy⟩ := hlt x y hxy
    rw [hz x hx, hz y hy]
    rcases hxy with hxy | ⟨rfl, rfl⟩
    · rw [h.pair x y hxy]
    · -- the pair itself: its two roots are the redirected one and its target
      rcases hdt with ⟨rfl, rfl⟩ | ⟨rfl, rfl⟩ <;> simp
  · rw [hz x hx]
    split
    · next hxd => exact Relation.EqvGen.trans _ _ _ (hmono _ _ (hxd ▸ h.root x hx)) hdt'
    · exact hmono _ _ (h.root x hx)

theorem Joined.foldl_union {E : Nat → Nat → Prop} : ∀ (l : List (Nat × Nat)) {uf : UnionFind},
    uf.Joined n E → (∀ p ∈ l, p.1 < n ∧ p.2 < n) →
      (l.foldl (fun t p => t.union p.1 p.2) uf).Joined n fun x y => E x y ∨ (x, y) ∈ l
  | [], _, h, _ => h.congr fun a b => by simp
  | p :: l, _, h, hl => by
    have hp := hl p List.mem_cons_self
    refine (Joined.foldl_union l (h.union hp.1 hp.2) fun q hq => hl q (List.mem_cons_of_mem p hq)).congr
      fun x y => ?_
    rw [List.mem_cons, Prod.ext_iff]
    tauto

end UnionFind

/-- Union by rank is a lawful unification table. -/
instance : UnifyTable.Lawful where
  joins n l hl := by
    have h : (l.foldl (fun t p => t.union p.1 p.2) (UnionFind.create n)).Joined n (UnifyTable.Linked l) :=
      ((UnionFind.joined_create n).foldl_union l hl).congr fun a b => by simp [UnifyTable.Linked]
    exact ⟨h.root, fun x hx y hy => h.find_eq_iff hx hy⟩

end CheckedPointers
