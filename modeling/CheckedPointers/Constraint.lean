import CheckedPointers.Qualifier
import CheckedPointers.Location
/-! # Constraints with provenance

A solver slot is a natural number, written `qN`; an atom is a slot or a qualifier constant. A
constraint relates atoms: `eq` asks both sides to resolve to the same qualifier, `geq` asks a
slot to resolve to at least a bound. Every constraint records why it was generated and, when
the fact behind it had one, where. The reason is also the handle for retracting constraints in
bulk.

An equality is stored normalized (`Relation.mkEq`): a slot stands on the left, and two slots are
ordered by number, so that `a == b` and `b == a` are one constraint. -/

namespace CheckedPointers

/-- Either a fixed lattice value or a solver slot standing for one. -/
inductive Atom where
  | const (q : Qualifier)
  | var (v : Nat)
  deriving DecidableEq, Repr, Inhabited

namespace Atom

def asVar? : Atom → Option Nat
  | var v => some v
  | const _ => none

def asConst? : Atom → Option Qualifier
  | const q => some q
  | var _ => none

/-- `qN` for a slot, the qualifier's name for a constant. -/
def display : Atom → String
  | const q => q.name
  | var v => s!"q{v}"

end Atom

/-- The shape of a constraint. -/
inductive Relation where
  /-- Both sides resolve to the same qualifier. -/
  | eq (lhs rhs : Atom)
  /-- The slot resolves to at least the bound. -/
  | geq (v : Nat) (bound : Qualifier)
  deriving DecidableEq, Repr, Inhabited

namespace Relation

/-- The normalized equality of two atoms: a slot on the left, two slots in ascending order. -/
def mkEq (lhs rhs : Atom) : Relation :=
  match lhs, rhs with
  | .const _, .var _ => eq rhs lhs
  | .var a, .var b => if b < a then eq rhs lhs else eq lhs rhs
  | _, _ => eq lhs rhs

/-- The slots a constraint mentions, left to right. -/
def vars : Relation → List Nat
  | eq l r => l.asVar?.toList ++ r.asVar?.toList
  | geq v _ => [v]

/-- The slot a constraint forces to `wild` directly, if it does. -/
def directWild? : Relation → Option Nat
  | eq (.var v) (.const .wild) => some v
  | geq v .wild => some v
  | _ => none

/-- `l == r` or `v >= Q`. -/
def display : Relation → String
  | eq l r => s!"{l.display} == {r.display}"
  | geq v q => s!"q{v} >= {q.name}"

theorem mkEq_vars_perm (l r : Atom) : (mkEq l r).vars = (eq l r).vars ∨ (mkEq l r).vars = (eq r l).vars := by
  cases l <;> cases r <;> simp only [mkEq] <;> (try split) <;> simp

end Relation

/-- A constraint with the reason it was generated and where. -/
structure Constraint where
  relation : Relation
  reason : String
  loc : Option SourceLoc
  deriving DecidableEq, Repr, Inhabited

namespace Constraint

/-- The relation, then ` (reason)` if there is one, then ` at file:line:col` if located. -/
def display (c : Constraint) : String :=
  let withReason := if c.reason.isEmpty then c.relation.display
    else s!"{c.relation.display} ({c.reason})"
  match c.loc with
  | some l => s!"{withReason} at {l.display}"
  | none => withReason

end Constraint

/-! The reasons the engine itself gives its constraints. -/
namespace Reason

def macroDecl : String := "pointer declared inside a macro expansion"
def notRewritable : String := "declaration is in a file that cannot be rewritten"
def incompatibleCast : String := "cast to an incompatible pointer type"
def arityMismatch : String := "declarations of the same function disagree on arity"
def externReturn : String := "return value of an external function without a body"
def externParam : String := "inner pointer of a parameter to an external function"
def wildBodyReturn : String := "function returns an unchecked pointer from its body"
def shapeMismatch : String := "assignment between incompatible pointer shapes"
def unknownCallee : String := "call to a function with no known signature"
def varargs : String := "argument passed through a variadic parameter list"
def arrayDecl : String := "declared as an array"
def stringLiteral : String := "string literal"
def pointerArith : String := "pointer arithmetic or indexing"
def itype : String := "interop type annotation"
def subtype : String := "declaration/definition subtyping"
def assignment : String := "assignment"
def argument : String := "argument bound to parameter"
def returned : String := "returned value"
def link : String := "same symbol declared more than once"

end Reason

end CheckedPointers
