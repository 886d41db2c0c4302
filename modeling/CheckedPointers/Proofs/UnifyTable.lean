import Mathlib.Logic.Relation
import CheckedPointers.UnifyTable

/-!
# Lawful unification tables

Clustering asks two things of its unification table, for the unions of pairs of keys below `n`
made one after another from `create n` (`UnifyTable.Lawful`): every key finds a member of its
class, and two keys find the same key exactly when the equivalence generated by the unions relates
them. Nothing is asked about which member a class is represented by.

The rest follows from these two laws: a key finds a key below `n` (`Joins.find_lt`) that finds
itself (`Joins.find_find`), and a labelling of the keys that agrees on every joined pair gives a
key the label of the key it finds (`Joins.label_find`). `Built` is the form in which a walk that
joins pairs one at a time carries the second fact.
-/

namespace CheckedPointers

namespace UnifyTable

variable [UnifyTable]

/-- The table after joining each pair of a list in turn. -/
def unionAll (t : Table) (l : List (Nat × Nat)) : Table := l.foldl (fun t p => union t p.1 p.2) t

/-- Pairs of keys, read as a relation. -/
def Linked (l : List (Nat × Nat)) (a b : Nat) : Prop := (a, b) ∈ l

/-- The table joins the pairs of `E` over the keys below `n`: every key finds a member of its
class, and the classes are those of the equivalence `E` generates. -/
structure Joins (t : Table) (n : Nat) (E : Nat → Nat → Prop) : Prop where
  find_mem_class : ∀ x < n, Relation.EqvGen E x (find t x)
  find_eq_iff : ∀ x < n, ∀ y < n, find t x = find t y ↔ Relation.EqvGen E x y

theorem unionAll_append (t : Table) (l l' : List (Nat × Nat)) :
    unionAll t (l ++ l') = unionAll (unionAll t l) l' := List.foldl_append

end UnifyTable

/-- The laws of a unification table: joining, from `create n`, pairs of keys below `n` gives a table
that joins exactly those pairs. -/
class UnifyTable.Lawful [UnifyTable] : Prop where
  joins : ∀ (n : Nat) (l : List (Nat × Nat)), (∀ p ∈ l, p.1 < n ∧ p.2 < n) →
    UnifyTable.Joins (UnifyTable.unionAll (UnifyTable.create n) l) n (UnifyTable.Linked l)

namespace UnifyTable

variable {n x : Nat} {E : Nat → Nat → Prop}

theorem eq_or_lt_of_eqvGen (hE : ∀ a b, E a b → a < n ∧ b < n) {x y : Nat} (h : Relation.EqvGen E x y) :
    x = y ∨ (x < n ∧ y < n) := by
  induction h with
  | rel a b hab => exact .inr (hE a b hab)
  | refl => exact .inl rfl
  | symm a b _ ih => exact ih.imp Eq.symm And.symm
  | trans a b c _ _ ih₁ ih₂ =>
    rcases ih₁ with rfl | ⟨ha, hb⟩
    · exact ih₂
    · rcases ih₂ with rfl | ⟨-, hc⟩
      · exact .inr ⟨ha, hb⟩
      · exact .inr ⟨ha, hc⟩

variable [UnifyTable] {t : Table}

namespace Joins

variable (h : Joins t n E)
include h

theorem congr {E' : Nat → Nat → Prop} (hE : ∀ a b, E a b ↔ E' a b) : Joins t n E' := by
  have : E = E' := funext fun a => funext fun b => propext (hE a b)
  exact this ▸ h

theorem find_lt (hE : ∀ a b, E a b → a < n ∧ b < n) (hx : x < n) : find t x < n := by
  rcases eq_or_lt_of_eqvGen hE (h.find_mem_class x hx) with heq | ⟨-, hlt⟩
  · exact heq ▸ hx
  · exact hlt

/-- The key a key finds represents its own class. -/
theorem find_find (hE : ∀ a b, E a b → a < n ∧ b < n) (hx : x < n) : find t (find t x) = find t x :=
  (h.find_eq_iff _ (h.find_lt hE hx) x hx).2 (Relation.EqvGen.symm _ _ (h.find_mem_class x hx))

/-- A labelling that agrees on every pair of `E` gives a key the label of the key it finds. -/
theorem label_find {α : Type} {q : Nat → α} (hq : ∀ a b, E a b → q a = q b) (hx : x < n) :
    q (find t x) = q x := by
  -- keys of one label form an equivalence that contains every pair
  have heqv : Equivalence fun a b => q a = q b := ⟨fun _ => rfl, fun h => h.symm, fun h h' => h.trans h'⟩
  exact (heqv.eqvGen_iff.1 (Relation.EqvGen.mono hq _ _ (h.find_mem_class x hx))).symm

end Joins

/-- The table is made from `create n` by unions of pairs of keys below `n` that `P` relates. -/
def Built (n : Nat) (P : Nat → Nat → Prop) (t : Table) : Prop :=
  ∃ l : List (Nat × Nat), t = unionAll (create n) l ∧ ∀ p ∈ l, p.1 < n ∧ p.2 < n ∧ P p.1 p.2

variable {P : Nat → Nat → Prop}

theorem built_create (n : Nat) (P : Nat → Nat → Prop) : Built n P (create n) :=
  ⟨[], rfl, fun _ h => nomatch h⟩

theorem Built.union (h : Built n P t) {a b : Nat} (ha : a < n) (hb : b < n) (hab : P a b) :
    Built n P (union t a b) := by
  obtain ⟨l, rfl, hl⟩ := h
  refine ⟨l ++ [(a, b)], by rw [unionAll_append]; rfl, fun p hp => ?_⟩
  rcases List.mem_append.1 hp with hp | hp
  · exact hl p hp
  · rw [List.mem_singleton.1 hp]
    exact ⟨ha, hb, hab⟩

/-- In a lawful table made by unions of keys of one label, every key below `n` has the label of
the key it finds. -/
theorem Built.label_find [Lawful] {α : Type} {q : Nat → α} (h : Built n (fun a b => q a = q b) t)
    (hx : x < n) : q (find t x) = q x := by
  obtain ⟨l, rfl, hl⟩ := h
  exact (Lawful.joins n l fun p hp => ⟨(hl p hp).1, (hl p hp).2.1⟩).label_find
    (fun a b hab => (hl (a, b) hab).2.2) hx

end UnifyTable

end CheckedPointers
