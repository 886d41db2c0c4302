import CheckedPointers.Json.Decode
import CheckedPointers.Toml
/-! # Engine options

Options are read from a TOML file or a JSON object with the same keys. Every key is optional and
takes its default when absent; an unknown key is refused. A JSON array gives the leading options
in key order. -/

namespace CheckedPointers

/-- How the engine treats separate declarations, variadic arguments and bodiless functions. -/
structure Options where
  /-- Do not equate the declarations of one function across files. -/
  separateMultipleFuncDecls : Bool := false
  /-- Force arguments passed through `...` to `wild`. -/
  handleVarargs : Bool := false
  /-- Bodiless functions whose signatures are trusted as checked. -/
  safeExterns : List String := ["malloc", "free"]
  /-- Upper bound on solve and reconcile alternations. -/
  maxReconcileRounds : Nat := 5
  /-- Show the analysis settings with the statistics. -/
  verbose : Bool := false
  deriving Repr, DecidableEq

namespace Options

/-- Every option at its default. -/
def defaults : Options := {}

instance : Inhabited Options := ⟨defaults⟩

def isSafeExtern (o : Options) (name : String) : Bool := o.safeExterns.contains name

/-- The keys an options record may hold. -/
def keys : List String :=
  ["separate_multiple_func_decls", "handle_varargs", "safe_externs", "max_reconcile_rounds", "verbose"]

/-- Reads options from a JSON object, or from an array of leading options in key order. -/
def ofJson? (j : Json) : Option Options := do
  let ms ← Json.record? (keys.map fun k => (k, true)) j
  if !Json.onlyKnown ms keys then none
  let d := defaults
  return {
    separateMultipleFuncDecls := ← Json.withDefault ms "separate_multiple_func_decls" Json.asBool? d.separateMultipleFuncDecls
    handleVarargs := ← Json.withDefault ms "handle_varargs" Json.asBool? d.handleVarargs
    safeExterns := ← Json.withDefault ms "safe_externs" (Json.asList? Json.asString?) d.safeExterns
    maxReconcileRounds := ← Json.withDefault ms "max_reconcile_rounds" Json.asU64? d.maxReconcileRounds
    verbose := ← Json.withDefault ms "verbose" Json.asBool? d.verbose }

def toJson (o : Options) : Json :=
  .obj [("separate_multiple_func_decls", .bool o.separateMultipleFuncDecls),
    ("handle_varargs", .bool o.handleVarargs),
    ("safe_externs", .arr (o.safeExterns.map Json.str)),
    ("max_reconcile_rounds", .num o.maxReconcileRounds),
    ("verbose", .bool o.verbose)]

/-- A TOML value as a JSON value of the same meaning. -/
def tomlToJson : Toml.Value → Json
  | .bool b => .bool b
  | .int n => .int n
  | .str s => .str s
  | .arr xs => .arr (xs.map tomlToJson)

/-- Reads options from the text of a TOML document. -/
def ofToml? (text : String) : Option Options := do
  let pairs ← Toml.parse? text
  ofJson? (.obj (pairs.map fun (k, v) => (k, tomlToJson v)))

end Options

end CheckedPointers
