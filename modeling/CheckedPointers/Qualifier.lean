import CheckedPointers.Text.Blank
/-! # The qualifier lattice

A pointer level is checked as a single object (`ptr`), as a null-terminated run (`ntArr`), as a
run of known extent (`arr`), or not at all (`wild`). These four form the chain
`ptr < ntArr < arr < wild`: smaller is safer, and `wild` is the top. Joins and meets are the
maximum and minimum along the chain, read off the `height` of each constant.

An interop annotation such as `_Ptr<int>` or `_Nt_array_ptr<char>` names a qualifier by its
head; `ofItype?` reads it. -/

namespace CheckedPointers

/-- A constant of the qualifier lattice, safest first. -/
inductive Qualifier where
  | ptr
  | ntArr
  | arr
  | wild
  deriving DecidableEq, Repr, Inhabited

namespace Qualifier

/-- Position on the chain: `ptr` is 0 and `wild` is 3. -/
def height : Qualifier → Nat
  | ptr => 0
  | ntArr => 1
  | arr => 2
  | wild => 3

theorem height_le_three (q : Qualifier) : q.height ≤ 3 := by
  cases q <;> decide

theorem height_injective {a b : Qualifier} (h : a.height = b.height) : a = b := by
  cases a <;> cases b <;> simp_all [height]

instance : LE Qualifier := ⟨fun a b => a.height ≤ b.height⟩
instance : LT Qualifier := ⟨fun a b => a.height < b.height⟩

instance (a b : Qualifier) : Decidable (a ≤ b) := inferInstanceAs (Decidable (a.height ≤ b.height))
instance (a b : Qualifier) : Decidable (a < b) := inferInstanceAs (Decidable (a.height < b.height))

/-- Least upper bound: the less safe of the two. -/
def join (a b : Qualifier) : Qualifier := if a.height ≤ b.height then b else a

/-- Greatest lower bound: the safer of the two. -/
def meet (a b : Qualifier) : Qualifier := if a.height ≤ b.height then a else b

/-- Three-way comparison along the chain. -/
def compare (a b : Qualifier) : Ordering := Ord.compare a.height b.height

theorem height_join (a b : Qualifier) : (a.join b).height = max a.height b.height := by
  unfold join; split <;> omega

theorem height_meet (a b : Qualifier) : (a.meet b).height = min a.height b.height := by
  unfold meet; split <;> omega

def isWild (q : Qualifier) : Bool := q == wild

/-- The name under which a qualifier is written. -/
def name : Qualifier → String
  | ptr => "Ptr"
  | ntArr => "NtArr"
  | arr => "Arr"
  | wild => "Wild"

/-- Reads a qualifier from its written name. -/
def ofName? : String → Option Qualifier
  | "Ptr" => some ptr
  | "NtArr" => some ntArr
  | "Arr" => some arr
  | "Wild" => some wild
  | _ => none

theorem ofName?_name (q : Qualifier) : ofName? q.name = some q := by
  cases q <;> rfl

/-- The qualifier an interop annotation names by its head, after leading blanks:
`_Nt_array_ptr`, `_Array_ptr` or `_Ptr`, tried in that order. -/
def ofItype? (itype : String) : Option Qualifier :=
  let head := (Text.trimBlankStart itype).toList
  if "_Nt_array_ptr".toList.isPrefixOf head then some ntArr
  else if "_Array_ptr".toList.isPrefixOf head then some arr
  else if "_Ptr".toList.isPrefixOf head then some ptr
  else none

end Qualifier

end CheckedPointers
