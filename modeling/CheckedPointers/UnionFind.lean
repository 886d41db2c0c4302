import CheckedPointers.UnifyTable
/-! # Union by rank

A forest over the keys `0 … n-1`: each key has a parent (a root is its own parent) and each root
a rank. Joining two keys finds both roots; if they differ, the root of lower rank is redirected
to the other, and on equal ranks the first key's root is redirected to the second's, whose rank
grows by one. Which key is a root, and so every key's root, depends only on this rule: path
compression would not change them, and there is none here.

Finding a root follows parents; the walk is given one step per key, which a forest never
exceeds. This is the unification table the program runs with. -/

namespace CheckedPointers

/-- Parents and ranks of a forest. -/
structure UnionFind where
  parent : Array Nat
  rank : Array Nat
  deriving Inhabited

namespace UnionFind

/-- `n` keys, each its own root of rank 0. -/
def create (n : Nat) : UnionFind := ⟨Array.range n, Array.replicate n 0⟩

/-- The root above `x`, following at most `fuel` parents. -/
def findAux (uf : UnionFind) : Nat → Nat → Nat
  | 0, x => x
  | fuel + 1, x =>
    let p := uf.parent.getD x x
    if p == x then x else uf.findAux fuel p

/-- The root above `x`. -/
def find (uf : UnionFind) (x : Nat) : Nat := uf.findAux uf.parent.size x

/-- Joins the trees of `a` and `b`. -/
def union (uf : UnionFind) (a b : Nat) : UnionFind :=
  let ra := uf.find a
  let rb := uf.find b
  if ra == rb then uf
  else
    let ka := uf.rank.getD ra 0
    let kb := uf.rank.getD rb 0
    if kb < ka then { uf with parent := uf.parent.setIfInBounds rb ra }
    else if ka < kb then { uf with parent := uf.parent.setIfInBounds ra rb }
    else { parent := uf.parent.setIfInBounds ra rb, rank := uf.rank.setIfInBounds rb (kb + 1) }

end UnionFind

instance : UnifyTable := ⟨UnionFind, UnionFind.create, UnionFind.union, UnionFind.find⟩

end CheckedPointers
