/-! # Sorted lists as sets and maps

A set of identifiers is a strictly ascending list, and a map is a list of pairs whose keys
ascend strictly. Iteration is in key order, the order in which every answer of this library lists
the members of a set or the entries of a map. Insertion keeps the order; inserting a present key
leaves a set unchanged and lets a map keep or update its entry as the caller asks. -/

namespace CheckedPointers

/-- A finite set kept as a strictly ascending list. -/
structure SortedSet (α : Type) [Ord α] where
  toList : List α
  deriving Inhabited, BEq

namespace SortedSet

variable {α : Type} [Ord α]

def empty : SortedSet α := ⟨[]⟩

/-- Inserts into an ascending list, leaving it unchanged when the element is present. -/
def insertList (x : α) : List α → List α
  | [] => [x]
  | y :: ys =>
    match compare x y with
    | .lt => x :: y :: ys
    | .eq => y :: ys
    | .gt => y :: insertList x ys

def insert (s : SortedSet α) (x : α) : SortedSet α := ⟨insertList x s.toList⟩

def singleton (x : α) : SortedSet α := ⟨[x]⟩

def ofList (xs : List α) : SortedSet α := xs.foldl insert empty

def union (s t : SortedSet α) : SortedSet α := t.toList.foldl insert s

def contains (s : SortedSet α) (x : α) : Bool := s.toList.any fun y => compare x y == .eq

def erase (s : SortedSet α) (x : α) : SortedSet α :=
  ⟨s.toList.filter fun y => compare x y != .eq⟩

def size (s : SortedSet α) : Nat := s.toList.length

def isEmpty (s : SortedSet α) : Bool := s.toList.isEmpty

/-- The least element, if any. -/
def min? (s : SortedSet α) : Option α := s.toList.head?

end SortedSet

/-- A finite map kept as a list of pairs with strictly ascending keys. -/
structure SortedMap (κ : Type) (ν : Type) [Ord κ] where
  toList : List (κ × ν)
  deriving Inhabited

namespace SortedMap

variable {κ ν : Type} [Ord κ]

def empty : SortedMap κ ν := ⟨[]⟩

def find? (m : SortedMap κ ν) (k : κ) : Option ν :=
  (m.toList.find? fun e => compare k e.1 == .eq).map Prod.snd

def contains (m : SortedMap κ ν) (k : κ) : Bool := (m.find? k).isSome

/-- Sets the value at `k` to `f` of the value found there. -/
def alterList (k : κ) (f : Option ν → ν) : List (κ × ν) → List (κ × ν)
  | [] => [(k, f none)]
  | (k', v) :: rest =>
    match compare k k' with
    | .lt => (k, f none) :: (k', v) :: rest
    | .eq => (k', f (some v)) :: rest
    | .gt => (k', v) :: alterList k f rest

/-- Sets the value at `k` to `f` of the value found there (`none` when absent). -/
def alter (m : SortedMap κ ν) (k : κ) (f : Option ν → ν) : SortedMap κ ν :=
  ⟨alterList k f m.toList⟩

/-- Sets the value at `k`, replacing any value there. -/
def insert (m : SortedMap κ ν) (k : κ) (v : ν) : SortedMap κ ν := m.alter k fun _ => v

/-- Sets the value at `k` unless one is already there: the first value wins. -/
def insertIfAbsent (m : SortedMap κ ν) (k : κ) (v : ν) : SortedMap κ ν :=
  m.alter k fun old => old.getD v

def keys (m : SortedMap κ ν) : List κ := m.toList.map Prod.fst

def values (m : SortedMap κ ν) : List ν := m.toList.map Prod.snd

def size (m : SortedMap κ ν) : Nat := m.toList.length

def isEmpty (m : SortedMap κ ν) : Bool := m.toList.isEmpty

end SortedMap

end CheckedPointers
