/-! # Unification tables

Clustering joins slots in a unification table over the keys `0 … n-1` and asks it, for each key,
for the key that represents its class. Which key represents a class is the table's own choice;
clustering uses nothing else of it. The runnable program takes union by rank (`UnionFind`), and
the theory of clustering holds of every table whose classes are the ones its unions generate. -/

namespace CheckedPointers

/-- A unification table over natural-number keys: `n` singleton classes, the union of the classes
of two keys, and the key that represents the class of a key. -/
class UnifyTable where
  Table : Type
  create : Nat → Table
  union : Table → Nat → Nat → Table
  find : Table → Nat → Nat

end CheckedPointers
