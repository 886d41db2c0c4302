import CheckedPointers.Program.Facts
import CheckedPointers.Program.Link
import CheckedPointers.Program.Reconcile
import CheckedPointers.WildGroups
import CheckedPointers.Stats
import CheckedPointers.Arena.Cast
/-! # Analysis sessions

A session goes through build (record facts and link), solve (solve, then alternate
reconciliation and solving until a round adds nothing or the round limit is reached, then cluster
the `wild` slots), and then any number of queries and speculative retractions.

Building again clears the clusters; a failing build keeps what it recorded before the failure but
neither marks the session built nor clears the clusters. A speculation works on a copy of the
constraints: it removes the constraint forcing a slot to `wild` (or every constraint with that
constraint's reason), puts every slot back to `ptr`, solves once without reconciling, and clusters
again; committing it makes the copy the session's. -/

namespace CheckedPointers

/-- A program with the lifecycle state of its analysis. -/
structure Session where
  program : Program
  built : Bool := false
  /-- The clusters of the last solve or commit, if still current. -/
  groups : Option WildGroups := none
  deriving Inhabited

/-- Session operations that may fail; a failure keeps the changes made before it. -/
abbrev SessionM := EStateM Error Session

/-- What a solve did. -/
structure SolveSummary where
  /-- Solver passes over all solves. -/
  passes : Nat
  /-- Reconciliation rounds run. -/
  rounds : Nat
  vars : Nat
  constraints : Nat
  wild : Nat
  deriving Inhabited

/-- How much a speculation retracts. -/
inductive Retraction where
  /-- Only the constraint forcing the slot to `wild`. -/
  | single
  /-- Every constraint with that constraint's reason. -/
  | sameReason
  deriving DecidableEq

/-- The outcome of a speculative retraction, not yet applied. -/
structure Speculation where
  removed : List Nat
  reason : String
  /-- Slots that stop being `wild`. -/
  nowChecked : List Nat
  wildBefore : Nat
  wildAfter : Nat
  store : ConstraintStore
  groups : WildGroups

namespace Session

def create (o : Options) : Session := { program := Program.ofOptions o }

/-- Runs a program operation on the session's program, keeping its changes even on failure. -/
def onProgram {α : Type} (m : ProgramM α) : SessionM α := do
  let s ← get
  match m.run s.program with
  | .ok a p => set { s with program := p }; return a
  | .error e p => set { s with program := p }; throw e

/-- Solves the program's constraints. -/
def solveStore : SessionM Nat := do
  let s ← get
  match s.program.store.solve with
  | .ok (st, cs) => set { s with program := { s.program with store := cs } }; return st.passes
  | .error e => throw e

/-- Records facts and links declarations across compilation units. -/
def build (facts : List Fact) : SessionM LinkStats := do
  onProgram (Program.addFacts facts)
  let stats ← onProgram Program.link
  modify fun s => { s with built := true, groups := none }
  return stats

/-- Reconciles and solves in turn, at most `rounds` more times; gives the rounds run and the
passes of the solves. -/
def reconcileRounds : Nat → Nat → Nat → SessionM (Nat × Nat)
  | 0, done, passes => return (done, passes)
  | n + 1, done, passes => do
    if !(← onProgram Program.reconcile) then return (done + 1, passes)
    let more ← solveStore
    reconcileRounds n (done + 1) (passes + more)

/-- Solves to the joint fixpoint of solving and reconciling, then clusters the `wild` slots. -/
def solve [UnifyTable] : SessionM SolveSummary := do
  if !(← get).built then throw .notBuilt
  let passes ← solveStore
  let (rounds, passes) ← reconcileRounds (← get).program.options.maxReconcileRounds 0 passes
  let s ← get
  let groups := WildGroups.compute s.program s.program.store
  set { s with groups := some groups }
  return ⟨passes, rounds, s.program.store.numVars, s.program.store.size, groups.allWild.length⟩

/-- Retracts, on a copy, the constraint forcing `v` to `wild` (or all with its reason) and
solves again. -/
def speculate [UnifyTable] (s : Session) (v : Nat) (scope : Retraction) : Except Error Speculation := do
  let some before := s.groups | throw .notBuilt
  let cs := s.program.store
  let some id := cs.findWild? v | throw (.noWildConstraint v)
  let reason := ((cs.get? id).map Constraint.reason).getD ""
  let (removed, trial) := match scope with
    | .single => let (c, t) := cs.remove id; (if c.isSome then [id] else [], t)
    | .sameReason => cs.removeReason reason
  let (_, trial) ← trial.reset.solve
  let groups := WildGroups.compute s.program trial
  let nowChecked := before.allWild.filter fun w => !groups.allWild.contains w
  return ⟨removed, reason, nowChecked, before.allWild.length, groups.allWild.length, trial, groups⟩

/-- Makes a speculation the session's state. -/
def commit (s : Session) (sp : Speculation) : Session :=
  { s with program := { s.program with store := sp.store }, groups := some sp.groups }

/-- The solved chain of every entry recorded at a key, in entry order. -/
def solution (s : Session) (key : DeclKey) : List (List Qualifier) :=
  ((s.program.entriesAt.find? key).getD SortedSet.empty).toList.map
    (s.program.arena.solvedChain s.program.store)

/-- Whether a value of `src` flowing into `dst` needs a cast, judged on their highest entries. -/
def needsCast (s : Session) (src dst : DeclKey) (policy : CastPolicy) : Bool :=
  let p := s.program
  let entries := fun k => (p.entriesAt.find? k).getD SortedSet.empty
  match p.arena.highest p.store (entries src), p.arena.highest p.store (entries dst) with
  | some a, some b => p.arena.needsCast p.store a b policy
  | _, _ => false

def stats (s : Session) : Stats := Stats.compute s.program

end Session

end CheckedPointers
