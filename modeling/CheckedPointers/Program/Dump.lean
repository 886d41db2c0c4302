import CheckedPointers.Program.Basic
import CheckedPointers.Arena.Solution
import CheckedPointers.Fact.Json
/-! # Dumping a program

The dump holds the constraint store (qualifiers of the slots, live constraints by id, chains and
the next id), every declaration key's entries with their solutions, and whether each function
name was seen with a body. Declarations are named by the text of their keys, so of two keys
written alike the later in key order gives the entries. An equality is written `{"Eq": [atom, atom]}` with an atom as
`{"Var": n}` or `{"Const": "Q"}`, a bound as `{"Geq": [n, "Q"]}`. -/

namespace CheckedPointers

def Atom.toJson : Atom → Json
  | .var v => .obj [("Var", .num v)]
  | .const q => .obj [("Const", .str q.name)]

def Relation.toJson : Relation → Json
  | .eq l r => .obj [("Eq", .arr [l.toJson, r.toJson])]
  | .geq v q => .obj [("Geq", .arr [.num v, .str q.name])]

def Constraint.toJson (c : Constraint) : Json :=
  .obj ([("kind", c.relation.toJson), ("reason", .str c.reason)] ++
    (match c.loc with | some l => [("loc", l.toJson)] | none => []))

def ConstraintStore.toJson (cs : ConstraintStore) : Json :=
  .obj [("env", .arr (cs.env.toList.map fun q => .str q.name)),
    ("constraints", .obj (cs.entries.map fun (i, c) => (toString i, c.toJson))),
    ("chains", .arr (cs.chains.map fun ch => .arr (ch.map Json.num))),
    ("next_id", .num cs.nextId)]

def Program.dumpJson (p : Program) : Json :=
  .obj [("constraints", p.store.toJson),
    ("variables", Json.mapObject (p.entriesAt.toList.map fun (k, s) =>
      (k.display, .arr (s.toList.map fun c => .str (p.arena.solvedText p.store c))))),
    ("extern_functions", .obj (p.bodies.toList.map fun (n, b) => (n, .bool b)))]

end CheckedPointers
