import CheckedPointers.Fact.Basic
import CheckedPointers.Json.Decode
import CheckedPointers.Json.Parse
/-! # Facts as JSON

The exchange format of facts. A fact and an expression are objects tagged by a `fact` or `expr`
member in snake case; every other member is a field. Members that name no field are ignored.
Every record may also be an array of its fields in order, led by the tag for a fact or an
expression. A fact's tag is a name; an expression inside a fact may give its variant's position
instead. Absent optional fields take their defaults: `col` 0, no levels, no parameters,
prototyped, rewritable, not global. Reading nests at most as deep as the JSON reader allows; `fuel` counts
the levels of nesting left.

Writing gives every field, except that an absent signature, parameter key, annotation or paired
declaration is left out; an absent location or call result is written as `null`. -/

namespace CheckedPointers

open Json

/-- Levels of nesting a reader descends; deeper than any text the JSON reader accepts. -/
def Json.decodeFuel : Nat := 256

/-! ## Reading -/

def DeclKey.ofJson? (j : Json) : Option DeclKey := do
  let ms ← record? [("file", false), ("line", false), ("col", true), ("name", false)] j
  return ⟨← req ms "file" asString?, ← req ms "line" asU32?, ← withDefault ms "col" asU32? 0,
    ← req ms "name" asString?⟩

def SourceLoc.ofJson? (j : Json) : Option SourceLoc := do
  let ms ← record? [("file", false), ("line", false), ("col", true)] j
  return ⟨← req ms "file" asString?, ← req ms "line" asU32?, ← withDefault ms "col" asU32? 0⟩

def Level.table : List (String × Level) := [("pointer", .pointer), ("array", .array)]

def DeclKind.table : List (String × DeclKind) :=
  [("variable", .variable), ("field", .field), ("parameter", .parameter), ("function", .function)]

/-- Reads a type shape, with `fuel` levels of nesting left; `buffered` when it stands inside a
fact, where a level may also be an object naming it with an empty object as its value. -/
def TypeShape.read? (buffered : Bool) : Nat → Json → Option TypeShape
  | 0, _ => none
  | fuel + 1, j => do
    let ms ← record? [("base", false), ("levels", true), ("function", true)] j
    let base ← req ms "base" asString?
    let level := if buffered then asBufferedVariant? Level.table else asVariant? Level.table
    let levels ← withDefault ms "levels" (asList? level) []
    let function ← optNull ms "function" fun f => do
      let fs ← record? [("ret", false), ("params", true), ("has_prototype", true), ("variadic", true)] f
      let ret ← req fs "ret" (TypeShape.read? buffered fuel)
      let params ← withDefault fs "params" (asList? fun p => do
        let ps ← record? [("name", true), ("ty", false), ("key", true), ("itype", true)] p
        return ⟨← withDefault ps "name" asString? "", ← req ps "ty" (TypeShape.read? buffered fuel),
          ← optNull ps "key" DeclKey.ofJson?, ← optNull ps "itype" asString?⟩) []
      return ⟨ret, params, ← withDefault fs "has_prototype" asBool? true,
        ← withDefault fs "variadic" asBool? false⟩
    return ⟨base, levels, function⟩

/-- Reads a type shape standing on its own, with `fuel` levels of nesting left. -/
def TypeShape.ofJson? : Nat → Json → Option TypeShape := TypeShape.read? false

def Expr.tags : List (String × Nat) :=
  [("decl", 0), ("deref", 1), ("index", 2), ("addr_of", 3), ("call", 4), ("string_literal", 5),
    ("conditional", 6), ("null", 7), ("other", 8)]

/-- Reads an expression, with `fuel` levels of nesting left; `buffered` when it stands inside
another record, where its tag may be a variant's position. The expressions inside it are always
buffered. -/
def Expr.read? (buffered : Bool) : Nat → Json → Option Expr
  | 0, _ => none
  | fuel + 1, j => do
    let (tag, rest) ← tagged? buffered "expr" Expr.tags j
    let inner := Expr.read? true fuel
    let of := fun (_ : Unit) => do
      req (← record? [("of", false)] rest) "of" inner
    match tag with
    | 0 =>
      let ms ← record? [("key", false), ("in_context", true)] rest
      return .decl (← req ms "key" DeclKey.ofJson?) (← withDefault ms "in_context" asBool? false)
    | 1 => return .deref (← of ())
    | 2 => return .index (← of ())
    | 3 => return .addrOf (← of ())
    | 4 => return .call (← req (← record? [("callee", false)] rest) "callee" inner)
    | 5 => unitRest? rest; return .stringLiteral
    | 6 => return .conditional (← req (← record? [("branches", false)] rest) "branches" (asList? inner))
    | 7 => unitRest? rest; return .null
    | _ => unitRest? rest; return .other

/-- Reads an expression standing on its own, with `fuel` levels of nesting left. -/
def Expr.ofJson? : Nat → Json → Option Expr := Expr.read? false

/-- The fields of a declaration fact, in order, with whether each has a default. -/
def DeclFact.fields : List (String × Bool) :=
  [("key", false), ("kind", false), ("ty", false), ("is_global", true), ("is_definition", true),
    ("rewritable", true), ("in_macro", true), ("itype", true), ("bounds_interop", true),
    ("declaration", true)]

def DeclFact.ofMembers? (ms : List (String × Json)) : Option DeclFact := do
  return {
    key := ← req ms "key" DeclKey.ofJson?
    kind := ← req ms "kind" (asBufferedVariant? DeclKind.table)
    ty := ← req ms "ty" (TypeShape.read? true decodeFuel)
    isGlobal := ← withDefault ms "is_global" asBool? false
    isDefinition := ← withDefault ms "is_definition" asBool? false
    rewritable := ← withDefault ms "rewritable" asBool? true
    inMacro := ← withDefault ms "in_macro" asBool? false
    itype := ← optNull ms "itype" asString?
    boundsInterop := ← withDefault ms "bounds_interop" asBool? false
    declaration := ← optNull ms "declaration" DeclKey.ofJson? }

def Fact.tags : List (String × Nat) :=
  [("declare", 0), ("assign", 1), ("call", 2), ("return", 3), ("cast", 4), ("arithmetic", 5)]

def Fact.ofJson? (j : Json) : Option Fact := do
  let (tag, rest) ← tagged? false "fact" Fact.tags j
  let expr := Expr.read? true decodeFuel
  let loc := fun ms => optNull ms "loc" SourceLoc.ofJson?
  match tag with
  | 0 => return .declare (← DeclFact.ofMembers? (← record? DeclFact.fields rest))
  | 1 =>
    let ms ← record? [("lhs", false), ("rhs", false), ("loc", true)] rest
    return .assign (← req ms "lhs" expr) (← req ms "rhs" expr) (← loc ms)
  | 2 =>
    let ms ← record? [("callee", false), ("args", true), ("result", true), ("loc", true)] rest
    let callee ← req ms "callee" expr
    let args ← withDefault ms "args" (asList? expr) []
    let result ← optNull ms "result" expr
    return .call callee args result (← loc ms)
  | 3 =>
    let ms ← record? [("function", false), ("expr", false), ("loc", true)] rest
    return .ret (← req ms "function" DeclKey.ofJson?) (← req ms "expr" expr) (← loc ms)
  | 4 =>
    let ms ← record? [("expr", false), ("from", false), ("to", false), ("loc", true)] rest
    let e ← req ms "expr" expr
    let src ← req ms "from" (TypeShape.read? true decodeFuel)
    let dst ← req ms "to" (TypeShape.read? true decodeFuel)
    return .cast e src dst (← loc ms)
  | _ =>
    let ms ← record? [("expr", false), ("loc", true)] rest
    return .arithmetic (← req ms "expr" expr) (← loc ms)

/-- Reads a list of facts from a JSON value. -/
def Fact.listOfJson? (j : Json) : Option (List Fact) := asList? Fact.ofJson? j

/-- Reads a list of facts from JSON text. -/
def Fact.parseList? (text : String) : Option (List Fact) := (Json.parse? text).bind Fact.listOfJson?

/-! ## Writing -/

def DeclKey.toJson (k : DeclKey) : Json :=
  .obj [("file", .str k.file), ("line", .num k.line), ("col", .num k.col), ("name", .str k.name)]

def SourceLoc.toJson (l : SourceLoc) : Json :=
  .obj [("file", .str l.file), ("line", .num l.line), ("col", .num l.col)]

def Level.toJson : Level → Json
  | .pointer => .str "pointer"
  | .array => .str "array"

def DeclKind.toJson : DeclKind → Json
  | .variable => .str "variable"
  | .field => .str "field"
  | .parameter => .str "parameter"
  | .function => .str "function"

mutual

def TypeShape.toJson : TypeShape → Json
  | ⟨base, levels, function⟩ =>
    .obj ([("base", .str base), ("levels", .arr (levels.map Level.toJson))] ++
      FunctionShape.toJsonMember function)

def FunctionShape.toJsonMember : Option FunctionShape → List (String × Json)
  | none => []
  | some f => [("function", FunctionShape.toJson f)]

def FunctionShape.toJson : FunctionShape → Json
  | ⟨ret, params, hasPrototype, variadic⟩ =>
    .obj [("ret", TypeShape.toJson ret), ("params", .arr (ParamShape.toJsonList params)),
      ("has_prototype", .bool hasPrototype), ("variadic", .bool variadic)]

def ParamShape.toJsonList : List ParamShape → List Json
  | [] => []
  | p :: ps => ParamShape.toJson p :: ParamShape.toJsonList ps

def ParamShape.toJson : ParamShape → Json
  | ⟨name, ty, key, itype⟩ =>
    .obj ([("name", .str name), ("ty", TypeShape.toJson ty)] ++
      (match key with | some k => [("key", k.toJson)] | none => []) ++
      (match itype with | some t => [("itype", .str t)] | none => []))

end

def Expr.toJson : Expr → Json
  | .decl key inContext => .obj [("expr", .str "decl"), ("key", key.toJson), ("in_context", .bool inContext)]
  | .deref e => .obj [("expr", .str "deref"), ("of", e.toJson)]
  | .index e => .obj [("expr", .str "index"), ("of", e.toJson)]
  | .addrOf e => .obj [("expr", .str "addr_of"), ("of", e.toJson)]
  | .call e => .obj [("expr", .str "call"), ("callee", e.toJson)]
  | .stringLiteral => .obj [("expr", .str "string_literal")]
  | .conditional bs => .obj [("expr", .str "conditional"), ("branches", .arr (bs.map Expr.toJson))]
  | .null => .obj [("expr", .str "null")]
  | .other => .obj [("expr", .str "other")]

def DeclFact.toJson (d : DeclFact) : Json :=
  .obj ([("fact", .str "declare"), ("key", d.key.toJson), ("kind", d.kind.toJson),
    ("ty", d.ty.toJson), ("is_global", .bool d.isGlobal), ("is_definition", .bool d.isDefinition),
    ("rewritable", .bool d.rewritable), ("in_macro", .bool d.inMacro)] ++
    (match d.itype with | some t => [("itype", .str t)] | none => []) ++
    [("bounds_interop", .bool d.boundsInterop)] ++
    (match d.declaration with | some k => [("declaration", k.toJson)] | none => []))

def Fact.toJson : Fact → Json
  | .declare d => d.toJson
  | .assign l r loc =>
    .obj [("fact", .str "assign"), ("lhs", l.toJson), ("rhs", r.toJson), ("loc", .opt SourceLoc.toJson loc)]
  | .call c args result loc =>
    .obj [("fact", .str "call"), ("callee", c.toJson), ("args", .arr (args.map Expr.toJson)),
      ("result", .opt Expr.toJson result), ("loc", .opt SourceLoc.toJson loc)]
  | .ret f e loc =>
    .obj [("fact", .str "return"), ("function", f.toJson), ("expr", e.toJson),
      ("loc", .opt SourceLoc.toJson loc)]
  | .cast e src dst loc =>
    .obj [("fact", .str "cast"), ("expr", e.toJson), ("from", src.toJson), ("to", dst.toJson),
      ("loc", .opt SourceLoc.toJson loc)]
  | .arithmetic e loc => .obj [("fact", .str "arithmetic"), ("expr", e.toJson), ("loc", .opt SourceLoc.toJson loc)]

end CheckedPointers
