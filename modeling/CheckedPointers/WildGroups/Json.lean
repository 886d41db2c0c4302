import CheckedPointers.WildGroups
import CheckedPointers.Fact.Json
/-! # Clusters and reports as JSON

A root cause is written with its slot, constraint, reason and, when it has one, location. A
report entry is written with its root, its source declaration when there is one, its indirect
slots and its declarations; the report with the two counts first. The clusters are written with
each grouped slot's leader, each group with its members, indirect members and whether it is led
by a root cause, the root causes, every `wild` slot, the declarations owning slots, and the
rewritable files. -/

namespace CheckedPointers

def WildRoot.toJson (r : WildRoot) : Json :=
  .obj ([("var", .num r.var), ("constraint", .num r.constraint), ("reason", .str r.reason)] ++
    (match r.loc with | some l => [("loc", l.toJson)] | none => []))

def GroupReport.toJson (g : GroupReport) : Json :=
  .obj ([("root", g.root.toJson)] ++
    (match g.source with | some s => [("source", .str s)] | none => []) ++
    [("indirect", .arr (g.indirect.map Json.num)), ("decls", .arr (g.decls.map Json.str))])

def WildReport.toJson (r : WildReport) : Json :=
  .obj [("total_wild", .num r.totalWild), ("real_wild", .num r.realWild),
    ("groups", .arr (r.groups.map GroupReport.toJson))]

def WildGroups.toJson (g : WildGroups) : Json :=
  .obj [("leaders", .obj (g.leaders.toList.map fun (v, l) => (toString v, .num l))),
    ("groups", .arr (g.groups.toList.map fun (leader, members) =>
      .obj [("leader", .num leader), ("members", .arr (members.toList.map Json.num)),
        ("indirect", .arr ((g.indirectMembers leader).map Json.num)),
        ("unsafe", .bool (g.isRealWild leader))])),
    ("real_wild", .arr (g.realWild.values.map WildRoot.toJson)),
    ("all_wild", .arr (g.allWild.map Json.num)),
    ("slot_sources", .obj (g.slotSources.toList.map fun (v, k) => (toString v, .str k.display))),
    ("valid_files", .arr (g.validFiles.map Json.str))]

end CheckedPointers
