import CheckedPointers.Fact.Basic
import CheckedPointers.Text.Blank
/-! # Safe explicit casts

An explicit cast keeps pointer safety when source and target agree level by level and their
innermost types are interchangeable. Identical shapes are always safe. Pointer and array levels
are peeled together; a pointer against a non-pointer is unsafe, and so is a function type that
is not identical. Two scalar bases are interchangeable when they fall into the same class (char,
integer or floating); any other base must match exactly. -/

namespace CheckedPointers

/-- The classes of arithmetic base types that a cast may move between. -/
inductive ScalarClass where
  | char
  | integer
  | floating
  deriving DecidableEq, Repr

namespace ScalarClass

/-- The class of a base type name, read from its words with `const`, `volatile` and `restrict`
dropped. -/
def ofBase? (base : String) : Option ScalarClass :=
  let words := (Text.blankWords base).filter fun w =>
    w != "const" && w != "volatile" && w != "restrict"
  match words with
  | ["char"] | ["signed", "char"] | ["unsigned", "char"] => some .char
  | ["float"] | ["double"] | ["long", "double"] => some .floating
  | ["_Bool"] | ["bool"] | ["size_t"] | ["ssize_t"] | ["ptrdiff_t"] | ["intptr_t"]
  | ["uintptr_t"] => some .integer
  | ws =>
    if !ws.isEmpty && ws.all (fun w => w == "int" || w == "short" || w == "long" ||
        w == "signed" || w == "unsigned") then some .integer
    else none

end ScalarClass

namespace TypeShape

/-- Whether an explicit cast keeps pointer safety, for `dst` and `src` with their levels replaced
by `dl` and `sl`: equal shapes are safe; two pointers compare their pointees; a pointer and a
non-pointer are not safe; otherwise function types are not safe, and scalar bases must agree on
their class or, when either has none, be equal. -/
def castSafeAt (dst src : TypeShape) (dl sl : List Level) : Bool :=
  if ({ dst with levels := dl } : TypeShape) == { src with levels := sl } then true
  else
    match dl, sl with
    | _ :: dl, _ :: sl => castSafeAt dst src dl sl
    | _ :: _, [] | [], _ :: _ => false
    | [], [] =>
      if dst.function.isSome || src.function.isSome then false
      else
        match ScalarClass.ofBase? dst.base, ScalarClass.ofBase? src.base with
        | some d, some s => d == s
        | _, _ => dst.base == src.base

/-- Whether an explicit cast from `src` to `dst` keeps pointer safety. -/
def isExplicitCastSafe (dst src : TypeShape) : Bool := castSafeAt dst src dst.levels src.levels

end TypeShape

end CheckedPointers
