/-! # JSON values

A JSON value as read: an object keeps its members in the order written, repeated keys
included, so that a reader can refuse a repeated field. A number is kept as an integer when it
is written without fraction or exponent and fits a 64-bit word (unsigned, or signed when
negative); every other number (a fraction, an exponent, a negative zero, a larger integer) is
kept as its text, and no field of this library accepts it. -/

namespace CheckedPointers

/-- A JSON value. -/
inductive Json where
  | null
  | bool (b : Bool)
  /-- An integer in `[-2^63, 2^64)` written without fraction or exponent. -/
  | int (n : Int)
  /-- Any other number, by its text. -/
  | float (text : String)
  | str (s : String)
  | arr (items : List Json)
  | obj (members : List (String × Json))
  deriving Repr, Inhabited

namespace Json

/-- The value of the last member named `k`, if any. -/
def field? (j : Json) (k : String) : Option Json :=
  match j with
  | obj ms => (ms.reverse.find? fun m => m.1 == k).map Prod.snd
  | _ => none

/-- How many members are named `k`. -/
def fieldCount (j : Json) (k : String) : Nat :=
  match j with
  | obj ms => (ms.filter fun m => m.1 == k).length
  | _ => 0

def num (n : Nat) : Json := int n

def opt {α : Type} (f : α → Json) : Option α → Json
  | some a => f a
  | none => null

/-- Sets member `k` of a list of members: in place when it is there, last otherwise. -/
def setMember (ms : List (String × Json)) (k : String) (v : Json) : List (String × Json) :=
  if ms.any (·.1 == k) then ms.map fun m => if m.1 == k then (k, v) else m else ms ++ [(k, v)]

/-- An object built as a map, one member after another: a member whose key is already there
replaces the value it had. -/
def mapObject (ms : List (String × Json)) : Json :=
  obj (ms.foldl (fun acc m => setMember acc m.1 m.2) [])

/-- Object members ordered by key; members with equal keys keep their order. -/
def orderMembers (ms : List (String × Json)) : List (String × Json) :=
  ms.mergeSort fun a b => !(b.1 < a.1)

mutual

/-- The value with the members of every object, at every depth, ordered by key. -/
def sortKeys : Json → Json
  | arr xs => arr (sortKeysItems xs)
  | obj ms => obj (orderMembers (sortKeysMembers ms))
  | j => j

def sortKeysItems : List Json → List Json
  | [] => []
  | x :: xs => sortKeys x :: sortKeysItems xs

def sortKeysMembers : List (String × Json) → List (String × Json)
  | [] => []
  | (k, v) :: ms => (k, sortKeys v) :: sortKeysMembers ms

end

end Json

end CheckedPointers
