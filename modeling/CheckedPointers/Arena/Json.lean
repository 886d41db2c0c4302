import CheckedPointers.Arena.Basic
import CheckedPointers.Json.Basic
/-! # Entries as JSON

A pointer entry is written with `kind` `pointer`, its name, base and slots, its function and
annotation only when present, and its recorded arguments only when there are some; a function
entry with `kind` `function`, its return alternatives, its parameters' alternatives and its
three flags. -/

namespace CheckedPointers

def natsJson (xs : List Nat) : Json := .arr (xs.map Json.num)

def Entry.toJson : Entry → Json
  | .pointer p =>
    .obj ([("kind", .str "pointer"), ("name", .str p.name), ("base", .str p.base),
      ("slots", natsJson p.slots)] ++
      (match p.function with | some f => [("function", .num f)] | none => []) ++
      [("arr_present", .bool p.arrPresent)] ++
      (match p.itype with | some t => [("itype", .str t)] | none => []) ++
      [("bounds_interop", .bool p.boundsInterop)] ++
      (if p.arguments.isEmpty then [] else [("argument_constraints", natsJson p.arguments.toList)]))
  | .function f =>
    .obj [("kind", .str "function"), ("name", .str f.name), ("returns", natsJson f.returns.toList),
      ("params", .arr (f.params.map fun s => natsJson s.toList)), ("has_body", .bool f.hasBody),
      ("has_prototype", .bool f.hasPrototype), ("variadic", .bool f.variadic)]

def Arena.toJson (a : Arena) : Json := .obj [("vars", .arr (a.entries.toList.map Entry.toJson))]

end CheckedPointers
