import CheckedPointers.Data.Sorted
import CheckedPointers.Constraint.Store
/-! # Constraint entries

An entry describes the pointer structure of one declaration or expression. A pointer entry holds
one solver slot per pointer or array level, outermost first, and the function it points to, if
any. A function entry holds, for its return and each parameter, a set of alternative entries.
Entries live in an arena and are numbered in allocation order (written `vN`). Nothing owns
anything: a derived view (a dereference, an address) is a new entry sharing slots with its
source.

Every entry an entry refers to (its function, its returns and parameters) was allocated before
it, so it has a smaller number; the arena's recursive views descend along these numbers. -/

namespace CheckedPointers

/-- A pointer entry: one slot per level, outermost first. -/
structure PointerEntry where
  name : String
  base : String
  slots : List Nat
  /-- The function pointed to, for a function pointer. -/
  function : Option Nat
  /-- The outermost level was declared as an array. -/
  arrPresent : Bool
  itype : Option String
  boundsInterop : Bool
  /-- The call-site arguments bound to this parameter or return. -/
  arguments : SortedSet Nat
  deriving Inhabited

/-- A function entry: the alternatives of its return and of each parameter. -/
structure FunctionEntry where
  name : String
  returns : SortedSet Nat
  params : List (SortedSet Nat)
  hasBody : Bool
  hasPrototype : Bool
  variadic : Bool
  deriving Inhabited

/-- An entry of the arena. -/
inductive Entry where
  | pointer (p : PointerEntry)
  | function (f : FunctionEntry)
  deriving Inhabited

namespace Entry

def name : Entry → String
  | pointer p => p.name
  | function f => f.name

end Entry

/-- Annotations of a declaration that its entry records. -/
structure Annotations where
  itype : Option String := none
  boundsInterop : Bool := false
  hasBody : Bool := false

/-- The entries, numbered by position. -/
structure Arena where
  entries : Array Entry
  deriving Inhabited

namespace Arena

def empty : Arena := ⟨#[]⟩

def size (a : Arena) : Nat := a.entries.size

/-- Appends an entry and gives its number. -/
def alloc (a : Arena) (e : Entry) : Nat × Arena := (a.entries.size, ⟨a.entries.push e⟩)

def get? (a : Arena) (id : Nat) : Option Entry := a.entries[id]?

def pointer? (a : Arena) (id : Nat) : Option PointerEntry :=
  match a.get? id with
  | some (.pointer p) => some p
  | _ => none

def function? (a : Arena) (id : Nat) : Option FunctionEntry :=
  match a.get? id with
  | some (.function f) => some f
  | _ => none

def isFunction (a : Arena) (id : Nat) : Bool := (a.function? id).isSome

/-- Records that `arg` was bound to the parameter or return `param` at a call site. -/
def recordArgument (a : Arena) (param arg : Nat) : Arena :=
  match a.get? param with
  | some (.pointer p) => ⟨a.entries.set! param (.pointer { p with arguments := p.arguments.insert arg })⟩
  | _ => a

end Arena

end CheckedPointers
