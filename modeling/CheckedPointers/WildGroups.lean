import CheckedPointers.Program.Lookup
import CheckedPointers.UnifyTable
/-! # Clustering `wild` slots by root cause

Slots related by an equality between two slots fall into one group (by the unions of a
unification table, in constraint order). A slot forced to `wild` directly (by `v >= Wild` or
`v == Wild`) is a root cause; the first such constraint, by id, is recorded for it. Only slots that
some equality or direct constraint mentions are grouped. A group is led by the key the table finds
for its members (its root) when that is a root cause, else by its smallest root-cause member, else
by the root; every other member of a group led by a root cause is `wild` only because of it. A
store whose constraints name a slot it does not have cannot be clustered (`compute?`).

The report lists one entry per group led by a root cause, largest first (most indirect members),
ties by the root's slot; each entry names the declarations of rewritable files that own its
slots. -/

namespace CheckedPointers

/-- Why a slot is `wild` on its own account. -/
structure WildRoot where
  var : Nat
  constraint : Nat
  reason : String
  loc : Option SourceLoc
  deriving Inhabited, DecidableEq

/-- The groups of a solved constraint store. -/
structure WildGroups where
  leaders : SortedMap Nat Nat
  groups : SortedMap Nat (SortedSet Nat)
  realWild : SortedMap Nat WildRoot
  allWild : List Nat
  slotSources : SortedMap Nat DeclKey
  validFiles : List String
  deriving Inhabited

/-- One group led by a root cause. -/
structure GroupReport where
  root : WildRoot
  /-- The declaration owning the root slot, if it is in a rewritable file. -/
  source : Option String
  indirect : List Nat
  decls : List String

/-- The groups led by root causes, largest first. -/
structure WildReport where
  totalWild : Nat
  realWild : Nat
  groups : List GroupReport

namespace WildGroups

/-- Clusters a solved constraint store of a program. -/
def compute [UnifyTable] (p : Program) (cs : ConstraintStore) : WildGroups :=
  let (uf, touched, real) := cs.entries.foldl (fun (acc : UnifyTable.Table × SortedSet Nat × SortedMap Nat WildRoot) e =>
    let (uf, touched, real) := acc
    let (id, c) := e
    match c.relation with
    | .eq (.var a) (.var b) => (UnifyTable.union uf a b, (touched.insert a).insert b, real)
    | r =>
      match r.directWild? with
      | some v => (uf, touched.insert v, real.insertIfAbsent v ⟨v, id, c.reason, c.loc⟩)
      | none => (uf, touched, real)) (UnifyTable.create cs.numVars, SortedSet.empty, SortedMap.empty)
  let byRoot : SortedMap Nat (SortedSet Nat) := touched.toList.foldl (fun m v =>
    m.alter (UnifyTable.find uf v) fun s => (s.getD SortedSet.empty).insert v) SortedMap.empty
  let (leaders, groups) := byRoot.toList.foldl (fun (acc : SortedMap Nat Nat × SortedMap Nat (SortedSet Nat)) e =>
    let (root, members) := e
    let leader := if real.contains root then root
      else (members.toList.find? real.contains).getD root
    (members.toList.foldl (fun m v => m.insert v leader) acc.1, acc.2.insert leader members))
    (SortedMap.empty, SortedMap.empty)
  ⟨leaders, groups, real, cs.wildVars, p.slotSources, p.rewritableFiles⟩

/-- Whether every slot that clustering looks up is a slot of the store: both slots of each
equality between slots, and each slot forced to `wild` directly. -/
def coversStore (cs : ConstraintStore) : Bool :=
  cs.entries.all fun (_, c) =>
    match c.relation with
    | .eq (.var a) (.var b) => a < cs.numVars && b < cs.numVars
    | r => match r.directWild? with
      | some v => v < cs.numVars
      | none => true

/-- Clusters a store whose constraints name only its own slots; nothing for any other store,
whose clustering would look up a slot the table does not have. -/
def compute? [UnifyTable] (p : Program) (cs : ConstraintStore) : Option WildGroups :=
  if coversStore cs then some (compute p cs) else none

def leaderOf? (g : WildGroups) (v : Nat) : Option Nat := g.leaders.find? v

def isRealWild (g : WildGroups) (v : Nat) : Bool := g.realWild.contains v

/-- Members of a group that are `wild` only because of its leader. -/
def indirectMembers (g : WildGroups) (leader : Nat) : List Nat :=
  ((g.groups.find? leader).getD SortedSet.empty).toList.filter fun v => !g.isRealWild v

/-- The root cause a slot is attributed to, if its group is led by one. -/
def rootCause? (g : WildGroups) (v : Nat) : Option WildRoot :=
  (g.leaderOf? v).bind g.realWild.find?

def sourceOf? (g : WildGroups) (v : Nat) : Option DeclKey := g.slotSources.find? v

/-- The report: one entry per group led by a root cause, most indirect members first. -/
def report (g : WildGroups) : WildReport :=
  let entries := g.groups.toList.filterMap fun (leader, _) =>
    (g.realWild.find? leader).map fun root =>
      let indirect := g.indirectMembers root.var
      let decls := (SortedSet.ofList ((indirect ++ [root.var]).filterMap fun v =>
        (g.sourceOf? v).map DeclKey.display)).toList
      ({ root := root, source := (g.sourceOf? root.var).map DeclKey.display, indirect := indirect,
         decls := decls } : GroupReport)
  let sorted := entries.mergeSort fun a b =>
    b.indirect.length < a.indirect.length ||
      (b.indirect.length == a.indirect.length && a.root.var ≤ b.root.var)
  ⟨g.allWild.length, g.realWild.size, sorted⟩

end WildGroups

end CheckedPointers
