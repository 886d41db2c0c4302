import CheckedPointers.Location
/-! # Engine errors

Each error names an internal inconsistency: a constraint over a slot that was never created, a
parameter past a function's arity, a dereference of a function, a request before anything was
built, a retraction of a slot that nothing forces to `wild`, or a function key with no recorded
function. Missing information is never an error: lookups answer empty sets. -/

namespace CheckedPointers

/-- Why an engine operation failed. -/
inductive Error where
  /-- A constraint (or, with `none`, a chain) mentions a slot that was never created. -/
  | unregisteredAtom (constraint : Option Nat) (var : Nat)
  /-- Parameter `index` of a function with `arity` parameters was asked for. -/
  | paramOutOfRange (function : String) (index arity : Nat)
  /-- A function-only entry was dereferenced. -/
  | derefFunction (entry : Nat)
  /-- Solving or retracting was asked for before constraints were built. -/
  | notBuilt
  /-- A retraction named a slot with no constraint forcing it to `wild`. -/
  | noWildConstraint (var : Nat)
  /-- A function key without a recorded function. -/
  | unknownFunction (key : DeclKey)
  deriving DecidableEq, Repr

namespace Error

/-- The kind of the error, as the protocol names it. -/
def kind : Error → String
  | unregisteredAtom .. => "UnregisteredAtom"
  | paramOutOfRange .. => "ParamOutOfRange"
  | derefFunction .. => "DerefFunction"
  | notBuilt => "NotBuilt"
  | noWildConstraint .. => "NoWildConstraint"
  | unknownFunction .. => "UnknownFunction"

/-- The error's text. -/
def message : Error → String
  | unregisteredAtom c v =>
    let which := match c with
      | some id => s!"Some(ConstraintId({id}))"
      | none => "None"
    s!"constraint {which} refers to unregistered variable q{v}"
  | paramOutOfRange f i n => s!"function `{f}` has {n} parameters, parameter {i} requested"
  | derefFunction e => s!"cannot dereference function-only constraint variable v{e}"
  | notBuilt => "constraints have not been built yet"
  | noWildConstraint v => s!"variable q{v} has no constraint forcing it to Wild"
  | unknownFunction k => s!"no function constraint variable recorded for {k.display}"

end Error

end CheckedPointers
