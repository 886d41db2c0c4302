import CheckedPointers.Cli.Args
import CheckedPointers.Cli.Files
import CheckedPointers.Session
import CheckedPointers.UnionFind
import CheckedPointers.Diagnostic
import CheckedPointers.Fact.Json
import CheckedPointers.Json.Print
import CheckedPointers.WildGroups.Json
import CheckedPointers.Program.Dump
/-! # Running the program

Every command first builds and solves the whole program. The options come from `--config` (a
TOML file) or the defaults; `--handle-varargs`, `--separate-decls` and `--verbose` can only turn
settings on, a non-empty `--safe-extern` list replaces the trusted functions, and `--max-rounds`
replaces the bound on reconcile rounds. The fact files are read and parsed in order and their
facts put together; then the program is built and solved, and the dump is written when asked.

* `solve` prints the statistics table, or its JSON form.
* `wild` prints how many `wild` slots are forced directly, then each root cause, most
  far-reaching first and at most `--limit` of them: drawn against its source file when its
  location is valid and the file (below `--source-root`, if given) can be read, otherwise as
  one line. With `--json` it prints the report instead.
* `retract --var N` retracts the constraint forcing slot `N` (all constraints with its reason
  with `--by-reason`) and tells what that frees.

A failure ends the run with status 1 and one `error:` line; an error is described with what was
being done when it happened, as in `building constraints: …`. An options file that cannot be read
is described with the file's failure twice, once in the sentence and once as its cause. A root
cause whose word cannot be drawn (a one-byte span inside a longer character) stops the run with
status 101, after what was printed before it. -/

namespace CheckedPointers.Cli

/-- What a run leaves behind: its status, its standard output, and its error lines. -/
structure Outcome where
  status : Nat
  stdout : String
  errors : List String

/-- What a command prints, and whether it stopped short at a root cause it could not draw. -/
structure Printed where
  text : String
  stoppedShort : Bool := false

section

variable {m : Type → Type} [Monad m]

/-- Reads a file inside a run that may fail, keeping the file's own failure as a value. -/
def tryRead (fs : FileAccess m) (p : String) : ExceptT String m (Except String String) :=
  ExceptT.lift (fs.read p)

/-- Writes a file inside a run that may fail, keeping the file's own failure as a value. -/
def tryWrite (fs : FileAccess m) (p text : String) : ExceptT String m (Except String Unit) :=
  ExceptT.lift (fs.write p text)

/-- The options of a run: the file's or the defaults, with the command line's applied. -/
def loadOptions (fs : FileAccess m) (inv : Invocation) : ExceptT String m Options := do
  let base ← match inv.config with
    | none => pure Options.defaults
    | some path =>
      match ← tryRead fs path with
      | .error e => throw s!"failed to read {path}: {e}: {e}"
      | .ok text =>
        match Options.ofToml? text with
        | some o => pure o
        | none => throw "failed to parse options"
  return { base with
    handleVarargs := base.handleVarargs || inv.handleVarargs
    separateMultipleFuncDecls := base.separateMultipleFuncDecls || inv.separateDecls
    verbose := base.verbose || inv.verbose
    safeExterns := if inv.safeExterns.isEmpty then base.safeExterns else inv.safeExterns
    maxReconcileRounds := inv.maxRounds.getD base.maxReconcileRounds }

/-- The facts of the files, in order. -/
def loadFacts (fs : FileAccess m) : List String → ExceptT String m (List Fact)
  | [] => pure []
  | path :: paths => do
    let text ← match ← tryRead fs path with
      | .ok t => pure t
      | .error e => throw s!"failed to read \x27{path}\x27: {e}"
    let facts ← match Fact.parseList? text with
      | some fs => pure fs
      | none => throw s!"failed to parse facts in \x27{path}\x27"
    return facts ++ (← loadFacts fs paths)

/-- The session of a run, built and solved, after writing the dump when asked. -/
def prepare (fs : FileAccess m) (inv : Invocation) : ExceptT String m Session := do
  let opts ← loadOptions fs inv
  let facts ← loadFacts fs inv.facts
  let built ← match (Session.build facts).run (Session.create opts) with
    | .ok _ s => pure s
    | .error e _ => throw s!"building constraints: {e.message}"
  let session ← match Session.solve.run built with
    | .ok _ s => pure s
    | .error e _ => throw s!"solving constraints: {e.message}"
  if let some path := inv.dumpJson then
    let text := Json.render (Json.sortKeys session.program.dumpJson)
    match ← tryWrite fs path text with
    | .ok () => pure ()
    | .error e => throw s!"failed to write \x27{path}\x27: {e}"
  return session

/-- `dir/file`, or `file` alone when it is absolute or there is no directory. -/
def joinPath (dir : Option String) (file : String) : String :=
  match dir with
  | none => file
  | some d =>
    if file.startsWith "/" || d.isEmpty then file
    else if d.endsWith "/" then d ++ file else d ++ "/" ++ file

/-- One root cause of the `wild` listing; nothing when its word cannot be drawn. -/
def showRoot (fs : FileAccess m) (inv : Invocation) (g : WildGroups) (entry : GroupReport) :
    m (Option String) := do
  let root := entry.root
  let loc := Diagnostic.locationOf g root
  let affected := entry.indirect.length
  let source ← match loc with
    | some l => do
      match ← fs.read (joinPath inv.sourceRoot l.file) with
      | .ok t => pure (some t)
      | .error _ => pure none
    | none => pure none
  match loc, source with
  | some l, some text =>
    if l.isValid then return Diagnostic.render root l affected text !inv.noColor
    else return some (Diagnostic.plain root loc affected ++ "\n")
  | _, _ => return some (Diagnostic.plain root loc affected ++ "\n")

/-- The output of a command on a solved session. -/
def perform (fs : FileAccess m) (inv : Invocation) (s : Session) : ExceptT String m Printed := do
  match inv.command with
  | .solve =>
    let st := s.stats
    return ⟨if inv.json then Json.render st.toJson ++ "\n" else st.render, false⟩
  | .wild =>
    let some g := s.groups | return ⟨"", false⟩
    let report := g.report
    if inv.json then return ⟨Json.render report.toJson ++ "\n", false⟩
    let shown := match inv.limit with
      | some n => report.groups.take n
      | none => report.groups
    let items ← ExceptT.lift (shown.mapM (showRoot fs inv g))
    let drawn := (items.takeWhile Option.isSome).filterMap id
    return ⟨s!"{report.realWild} of {report.totalWild} Wild pointer slots are forced directly\n" ++
      String.join drawn, drawn.length < items.length⟩
  | .retract =>
    let v := inv.var.getD 0
    let scope := if inv.byReason then Retraction.sameReason else Retraction.single
    match s.speculate v scope with
    | .error e => throw s!"cannot retract q{v}: {e.message}"
    | .ok sp =>
      if inv.json then
        return ⟨Json.render (.obj [("now_checked", .arr (sp.nowChecked.map Json.num)),
          ("reason", .str sp.reason), ("removed", .num sp.removed.length), ("var", .num v),
          ("wild_after", .num sp.wildAfter), ("wild_before", .num sp.wildBefore)]) ++ "\n", false⟩
      let freed := if sp.nowChecked.isEmpty then ""
        else "now checked: " ++ ", ".intercalate (sp.nowChecked.map fun w => s!"q{w}") ++ "\n"
      return ⟨s!"retracting {sp.removed.length} constraint(s) ({sp.reason}): " ++
        s!"{sp.wildBefore} -> {sp.wildAfter} Wild\n" ++ freed, false⟩

/-- Runs the program on its arguments. -/
def run (fs : FileAccess m) (args : List String) : m Outcome := do
  match parse args with
  | .show text => return ⟨0, text, []⟩
  | .fail line => return ⟨2, "", line.toList⟩
  | .run inv =>
    let result ← (do perform fs inv (← prepare fs inv) : ExceptT String m Printed).run
    match result with
    | .ok out => return ⟨if out.stoppedShort then 101 else 0, out.text, []⟩
    | .error e => return ⟨1, "", ["error: " ++ e]⟩

end

end CheckedPointers.Cli
