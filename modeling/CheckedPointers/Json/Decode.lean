import CheckedPointers.Json.Basic
/-! # Reading records from JSON

The rules of a record reader: a record is an object; a member named by no field is ignored, or
refused when the record is closed; a field named twice is refused; a missing field takes its
default or is refused. A record may also be written as an array of its fields in order, where
trailing fields with defaults may be left out and an array longer than the record is refused.
An integer field takes only integers in its range; an optional field takes `null` for
nothing. -/

namespace CheckedPointers.Json

/-- The largest value of a 32-bit word. -/
def maxU32 : Nat := 4294967295

/-- The largest value of a 64-bit word. -/
def maxU64 : Nat := 18446744073709551615

def asBool? : Json → Option Bool
  | bool b => some b
  | _ => none

def asString? : Json → Option String
  | str s => some s
  | _ => none

/-- A natural number at most `bound`. -/
def asNatUpTo? (bound : Nat) : Json → Option Nat
  | int n => if 0 ≤ n && n.toNat ≤ bound then some n.toNat else none
  | _ => none

def asU32? : Json → Option Nat := asNatUpTo? maxU32

def asU64? : Json → Option Nat := asNatUpTo? maxU64

def asList? {α : Type} (f : Json → Option α) : Json → Option (List α)
  | arr xs => xs.mapM f
  | _ => none

/-- `null` for nothing, else a value. -/
def asOption? {α : Type} (f : Json → Option α) : Json → Option (Option α)
  | null => some none
  | j => (f j).map some

def members? : Json → Option (List (String × Json))
  | obj ms => some ms
  | _ => none

/-- The members named by an array of field values, given each field's name and whether it has
a default: the values go to the fields in order, fields past the end must have defaults, and
values past the last field are refused. -/
def positional : List (String × Bool) → List Json → Option (List (String × Json))
  | [], [] => some []
  | [], _ :: _ => none
  | (k, _) :: fs, x :: xs => (positional fs xs).map ((k, x) :: ·)
  | (_, hasDefault) :: fs, [] => if hasDefault then positional fs [] else none

/-- The members of a record written as an object or as an array of its fields in order. -/
def record? (fields : List (String × Bool)) : Json → Option (List (String × Json))
  | obj ms => some ms
  | arr xs => positional fields xs
  | _ => none

/-- The value of field `k` among `ms`: `some none` when absent, `none` when named twice. -/
def lookup (ms : List (String × Json)) (k : String) : Option (Option Json) :=
  match ms.filter (fun m => m.1 == k) with
  | [] => some none
  | [(_, v)] => some (some v)
  | _ => none

/-- A field that must be present. -/
def req {α : Type} (ms : List (String × Json)) (k : String) (f : Json → Option α) : Option α := do
  match ← lookup ms k with
  | some v => f v
  | none => none

/-- A field with a default when absent. -/
def withDefault {α : Type} (ms : List (String × Json)) (k : String) (f : Json → Option α) (d : α) :
    Option α := do
  match ← lookup ms k with
  | some v => f v
  | none => some d

/-- An optional field: absent or `null` is nothing. -/
def optNull {α : Type} (ms : List (String × Json)) (k : String) (f : Json → Option α) :
    Option (Option α) :=
  withDefault ms k (asOption? f) none

/-- Whether every member is named by one of `known`. -/
def onlyKnown (ms : List (String × Json)) (known : List String) : Bool :=
  ms.all fun m => known.contains m.1

/-- A unit variant of a closed set of names: the name as a string, or an object with the name as
its only key and `null` as its value. -/
def asVariant? {α : Type} (table : List (String × α)) : Json → Option α
  | str s => (table.find? fun e => e.1 == s).map Prod.snd
  | obj [(s, null)] => (table.find? fun e => e.1 == s).map Prod.snd
  | _ => none

/-- A unit variant inside a tagged record, which is read from a buffered copy: as `asVariant?`,
and the single member's value may also be an empty object. -/
def asBufferedVariant? {α : Type} (table : List (String × α)) : Json → Option α
  | obj [(s, obj [])] => (table.find? fun e => e.1 == s).map Prod.snd
  | j => asVariant? table j

/-- The tag of an internally tagged record and the rest of the record: the other members of an
object, or the values after the first of an array. The tag names a variant; inside a record
that is read from a buffered copy (`byPosition`) it may also give the variant's position. -/
def tagged? {α : Type} (byPosition : Bool) (tag : String) (table : List (String × α)) (j : Json) :
    Option (α × Json) := do
  let (t, rest) ← match j with
    | obj ms => do
      let t ← req ms tag some
      pure (t, obj (ms.filter fun m => m.1 != tag))
    | arr (t :: xs) => pure (t, arr xs)
    | _ => none
  let v ← match t with
    | str s => (table.find? fun e => e.1 == s).map Prod.snd
    | int n => if byPosition && 0 ≤ n then table[n.toNat]?.map Prod.snd else none
    | _ => none
  return (v, rest)

/-- The rest of a tagged record whose variant has no fields: any object, or an empty array. -/
def unitRest? : Json → Option Unit
  | obj _ => some ()
  | arr [] => some ()
  | _ => none

end CheckedPointers.Json
