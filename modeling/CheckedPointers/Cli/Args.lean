/-! # Command-line arguments

The program takes a command, `solve`, `wild` or `retract`, then fact files and options in any
order. An option is written `--name value` or `--name=value`; a switch `--name`, and `--verbose`
also `-v`, with short switches clustered as in `-vh`; `--` makes every later argument a fact
file. A switch may be given once, an option with a value once, and `--safe-extern` any number
of times.

Arguments are read left to right. An option named without `=` waits for its value, which is the
next argument unless that argument is `--` or starts with `-` and is longer than `-`. Values, of
options and of fact files alike, are checked only when the next recognised switch or option
comes (or, for an option's value, the next fact file), or at the end; fact files given one
after another are checked together. So an unrecognised argument is reported before a fault in the
values given before it, and an option left without a value is reported when the next switch or
option comes. Paths must not be
empty; `--var` is read as a signed 64-bit number and must then lie in `0..=4294967295`;
`--limit` and `--max-rounds` are unsigned 64-bit numbers.

Reading stops at the first fault, which is reported as one `error:` line with status 2.
`--help` (or `-h`, or the `help` command followed by command names) and `--version` print text
and stop with status 0; with no command, the help is the fault, with no `error:` line. -/

namespace CheckedPointers.Cli

/-- What the program is asked to do. -/
inductive Command where
  | solve
  | wild
  | retract
  deriving DecidableEq, Repr

namespace Command

def name : Command → String
  | solve => "solve"
  | wild => "wild"
  | retract => "retract"

def ofName? : String → Option Command
  | "solve" => some solve
  | "wild" => some wild
  | "retract" => some retract
  | _ => none

def about : Command → String
  | solve => "Solve and print per-file statistics"
  | wild => "Solve and list WILD root causes"
  | retract => "Solve, then speculatively retract the constraint forcing a slot Wild"

end Command

/-- How many values an option takes. -/
inductive Arity where
  /-- None: a switch. -/
  | switch
  /-- One, given at most once. -/
  | single
  /-- One per occurrence, any number of times. -/
  | repeated
  deriving DecidableEq, Repr

/-- An option: its long name, short name, arity, value name and help line, and the commands
that take it. -/
structure OptionSpec where
  long : String
  short : Option Char := none
  arity : Arity
  valueName : String := ""
  help : String
  commands : List Command := [.solve, .wild, .retract]

/-- Every option, in the order the help lists them. -/
def optionSpecs : List OptionSpec :=
  [{ long := "config", arity := .single, valueName := "CONFIG", help := "Options file (TOML)" },
   { long := "handle-varargs", arity := .switch
     help := "Force arguments passed through `...` to Wild" },
   { long := "separate-decls", arity := .switch
     help := "Do not link declarations of the same function across files" },
   { long := "safe-extern", arity := .repeated, valueName := "SAFE_EXTERN"
     help := "Trusted bodiless function (repeatable; replaces the configured list)" },
   { long := "max-rounds", arity := .single, valueName := "MAX_ROUNDS"
     help := "Upper bound on solve/reconcile rounds" },
   { long := "json", arity := .switch, help := "Output as JSON instead of human-readable text" },
   { long := "dump-json", arity := .single, valueName := "DUMP_JSON"
     help := "Write the constraint set and variable store to this file" },
   { long := "verbose", short := some 'v', arity := .switch
     help := "Debug logging, and print the analysis settings with the statistics" },
   { long := "no-color", arity := .switch, help := "Disable colorized output" },
   { long := "source-root", arity := .single, valueName := "SOURCE_ROOT"
     help := "Directory source locations are relative to", commands := [.wild] },
   { long := "limit", arity := .single, valueName := "LIMIT"
     help := "Show at most this many root causes", commands := [.wild] },
   { long := "var", arity := .single, valueName := "VAR"
     help := "Solver slot to retract (as printed, without the `q`)", commands := [.retract] },
   { long := "by-reason", arity := .switch, help := "Retract every constraint sharing the reason"
     commands := [.retract] }]

namespace OptionSpec

/-- `--name` for a switch, `--name <VALUE>` otherwise. -/
def display (o : OptionSpec) : String :=
  if o.arity == .switch then "--" ++ o.long else s!"--{o.long} <{o.valueName}>"

end OptionSpec

/-- The options a command takes. -/
def optionsOf (c : Command) : List OptionSpec := optionSpecs.filter (·.commands.contains c)

/-- A parsed command line. -/
structure Invocation where
  command : Command
  facts : List String := []
  config : Option String := none
  handleVarargs : Bool := false
  separateDecls : Bool := false
  safeExterns : List String := []
  maxRounds : Option Nat := none
  json : Bool := false
  dumpJson : Option String := none
  verbose : Bool := false
  noColor : Bool := false
  sourceRoot : Option String := none
  limit : Option Nat := none
  var : Option Nat := none
  byReason : Bool := false

/-- How reading the command line ends. -/
inductive Parsed where
  /-- Run the command. -/
  | run (inv : Invocation)
  /-- Print the text (help or version) and stop with status 0. -/
  | show (text : String)
  /-- Stop with status 2, with the `error:` line when there is one. -/
  | fail (line : Option String)

/-- The bounds of a signed and of an unsigned 64-bit number, and of `--var`. -/
def minSigned : Int := -9223372036854775808
def maxSigned : Int := 9223372036854775807
def maxWord : Int := 18446744073709551615
def maxU32 : Int := 4294967295

/-- The digits of a decimal number read left to right onto `acc` (its magnitude so far), within
`[lo, hi]` for the sign `negative`: the first character that is not a digit, or the first digit
that takes the value out of range, decides the error. -/
def readDigits (negative : Bool) (lo hi : Int) : List Char → Nat → Except String Int
  | [], acc => .ok (if negative then -(acc : Int) else acc)
  | c :: cs, acc =>
    if !c.isDigit then .error "invalid digit found in string"
    else
      let acc := 10 * acc + (c.toNat - '0'.toNat)
      if negative && -(acc : Int) < lo then .error "number too small to fit in target type"
      else if !negative && (acc : Int) > hi then .error "number too large to fit in target type"
      else readDigits negative lo hi cs acc

/-- A decimal number of a type with values `[lo, hi]`: an optional `+`, or `-` when the type is
signed (`lo < 0`), then digits. -/
def parseInteger (s : String) (lo hi : Int) : Except String Int :=
  match s.toList with
  | [] => .error "cannot parse integer from empty string"
  | ['+'] | ['-'] => .error "invalid digit found in string"
  | '+' :: ds => readDigits false lo hi ds 0
  | '-' :: ds => if lo < 0 then readDigits true lo hi ds 0 else .error "invalid digit found in string"
  | ds => readDigits false lo hi ds 0

/-- The fault of an option or argument left without a value. -/
def missingValue (display : String) : String :=
  s!"error: a value is required for \x27{display}\x27 but none was supplied"

/-- Records a value of an option, checked as its type requires. -/
def setValue (inv : Invocation) (o : OptionSpec) (v : String) : Except String Invocation :=
  let invalid := fun (why : String) => s!"error: invalid value \x27{v}\x27 for \x27{o.display}\x27: {why}"
  let word := fun (_ : Unit) => match parseInteger v 0 maxWord with
    | .ok n => .ok n.toNat
    | .error e => .error (invalid e)
  let path := fun (_ : Unit) => if v.isEmpty then .error (missingValue o.display) else .ok v
  match o.long with
  | "config" => do let p ← path (); .ok { inv with config := some p }
  | "safe-extern" => .ok { inv with safeExterns := inv.safeExterns ++ [v] }
  | "max-rounds" => do let n ← word (); .ok { inv with maxRounds := some n }
  | "dump-json" => do let p ← path (); .ok { inv with dumpJson := some p }
  | "source-root" => do let p ← path (); .ok { inv with sourceRoot := some p }
  | "limit" => do let n ← word (); .ok { inv with limit := some n }
  | "var" =>
    match parseInteger v minSigned maxSigned with
    | .error e => .error (invalid e)
    | .ok n =>
      if 0 ≤ n && n ≤ maxU32 then .ok { inv with var := some n.toNat }
      else .error (invalid s!"{n} is not in 0..=4294967295")
  | _ => .ok inv

/-- Turns on a switch. -/
def setSwitch (inv : Invocation) (long : String) : Invocation :=
  match long with
  | "handle-varargs" => { inv with handleVarargs := true }
  | "separate-decls" => { inv with separateDecls := true }
  | "json" => { inv with json := true }
  | "verbose" => { inv with verbose := true }
  | "no-color" => { inv with noColor := true }
  | "by-reason" => { inv with byReason := true }
  | _ => inv

/-! ## Help text -/

/-- `s` followed by spaces up to `width` characters. -/
def padRight (s : String) (width : Nat) : String :=
  s ++ String.ofList (List.replicate (width - s.length) ' ')

/-- The usage line of a command. -/
def usage (c : Command) : String :=
  match c with
  | .retract => "ptrqual retract [OPTIONS] --var <VAR> <FACTS>..."
  | c => s!"ptrqual {c.name} [OPTIONS] <FACTS>..."

/-- The help of a command: its purpose, usage, arguments and options, the help switch last. -/
def commandHelp (c : Command) : String :=
  let rows := (optionsOf c).map (fun o => (o.short, o.display, o.help)) ++
    [(some 'h', "--help", "Print help")]
  let longest := rows.foldl (fun m r => max m r.2.1.length) 0
  let line := fun (r : Option Char × String × String) =>
    let lead := match r.1 with
      | some s => s!"  -{s}, "
      | none => "      "
    lead ++ padRight r.2.1 (longest + 2) ++ r.2.2 ++ "\n"
  c.about ++ "\n\nUsage: " ++ usage c ++ "\n\nArguments:\n" ++
    "  <FACTS>...  Fact files, one JSON array per translation unit\n\nOptions:\n" ++
    String.join (rows.map line)

/-- The help of the program. -/
def programHelp : String :=
  "Checked-pointer qualifier inference\n\nUsage: ptrqual <COMMAND>\n\nCommands:\n" ++
  "  solve    Solve and print per-file statistics\n" ++
  "  wild     Solve and list WILD root causes\n" ++
  "  retract  Solve, then speculatively retract the constraint forcing a slot Wild\n" ++
  "  help     Print this message or the help of the given subcommand(s)\n\nOptions:\n" ++
  "  -h, --help     Print help\n  -V, --version  Print version\n"

def versionText : String := "ptrqual 0.1.0\n"

/-- The help of the `help` command. -/
def helpCommandHelp : String :=
  "Print this message or the help of the given subcommand(s)\n\nUsage: ptrqual help [COMMAND]...\n\n" ++
  "Arguments:\n  [COMMAND]...  Print help for the subcommand(s)\n"

/-! ## Reading the arguments -/

/-- The part of `--name=value` before the `=`, and the value when there is one. -/
def splitLong (body : String) : String × Option String :=
  match body.toList.span (· != '=') with
  | (name, []) => (String.ofList name, none)
  | (name, _ :: value) => (String.ofList name, some (String.ofList value))

/-- What values given on the command line are for. -/
inductive Target where
  | option (o : OptionSpec)
  | facts

/-- Values read but not yet checked, and what they are for. -/
structure Pending where
  target : Target
  values : List String

/-- Where reading a command's arguments stands. -/
structure Reading where
  inv : Invocation
  /-- The long names of the switches and options already given. -/
  given : List String := []
  pending : Option Pending := none
  /-- The pending option was named without `=` and has no value yet. -/
  awaiting : Bool := false
  /-- A `--` has been read. -/
  escaped : Bool := false

/-- The fault of a switch or option given twice. -/
def givenTwice (display : String) : Parsed :=
  .fail (some s!"error: the argument \x27{display}\x27 cannot be used multiple times")

def unexpected (arg : String) : Parsed := .fail (some s!"error: unexpected argument \x27{arg}\x27 found")

/-- Checks and records pending values: an option needs a value and may be given once, its value
must read as its type; a fact file must not be empty. -/
def settle (r : Reading) : Except Parsed Reading :=
  match r.pending with
  | none => .ok r
  | some ⟨.facts, vs⟩ =>
    if vs.any (·.isEmpty) then .error (.fail (some (missingValue "<FACTS>...")))
    else .ok { r with inv := { r.inv with facts := r.inv.facts ++ vs }, pending := none }
  | some ⟨.option o, vs⟩ =>
    if vs.isEmpty then .error (.fail (some (missingValue o.display)))
    else if o.arity != .repeated && r.given.contains o.long then .error (givenTwice o.display)
    else
      match vs.foldlM (fun inv v => setValue inv o v) r.inv with
      | .ok inv => .ok { r with inv := inv, given := o.long :: r.given, pending := none }
      | .error e => .error (.fail (some e))

/-- A fact file: fact files given one after another wait together; anything else pending is
settled first. -/
def addFact (r : Reading) (a : String) : Except Parsed Reading :=
  match r.pending with
  | some ⟨.facts, vs⟩ => .ok { r with pending := some ⟨.facts, vs ++ [a]⟩ }
  | _ => do
    let r ← settle r
    .ok { r with pending := some ⟨.facts, [a]⟩, awaiting := false }

/-- A switch is given: pending values are settled first; `--help` shows the command's help. -/
def giveSwitch (c : Command) (r : Reading) (o : OptionSpec) : Except Parsed Reading := do
  let r ← settle r
  if o.long == "help" then .error (.show (commandHelp c))
  else if r.given.contains o.long then .error (givenTwice o.display)
  else .ok { r with inv := setSwitch r.inv o.long, given := o.long :: r.given, awaiting := false }

/-- The switches of a command, the help switch among them. -/
def switchesOf (c : Command) : List OptionSpec :=
  (optionsOf c).filter (·.arity == .switch) ++
    [{ long := "help", short := some 'h', arity := .switch, help := "Print help" }]

/-- A cluster of short switches such as `-vh`, one after another. -/
def readShorts (c : Command) : List Char → Reading → Except Parsed Reading
  | [], r => .ok r
  | s :: more, r =>
    match (switchesOf c).find? (·.short == some s) with
    | none => .error (unexpected s!"-{s}")
    | some o => do readShorts c more (← giveSwitch c r o)

/-- One argument after the command. -/
def readOne (c : Command) (r : Reading) (a : String) : Except Parsed Reading :=
  if r.escaped then addFact r a
  else if a == "--" then .ok { r with escaped := true }
  else if a.startsWith "--" then
    let (name, value) := splitLong (a.drop 2).toString
    match (switchesOf c ++ optionsOf c).find? (·.long == name) with
    | none => .error (unexpected ("--" ++ name))
    | some o =>
      if o.arity == .switch then
        match value with
        | some v => .error (.fail (some
            s!"error: unexpected value \x27{v}\x27 for \x27--{name}\x27 found; no more were expected"))
        | none => giveSwitch c r o
      else do
        let r ← settle r
        match value with
        | some v => settle { r with pending := some ⟨.option o, [v]⟩, awaiting := false }
        | none => .ok { r with pending := some ⟨.option o, []⟩, awaiting := true }
  else if a.startsWith "-" && a != "-" then readShorts c (a.drop 1).toString.toList r
  else if r.awaiting then
    match r.pending with
    | some p => .ok { r with pending := some { p with values := p.values ++ [a] }, awaiting := false }
    | none => addFact r a
  else addFact r a

/-- The arguments after the command, left to right, then the final checks. -/
def readArgs (c : Command) : List String → Reading → Parsed
  | [], r =>
    match settle r with
    | .error p => p
    | .ok r =>
      if r.inv.facts.isEmpty || (c == .retract && r.inv.var.isNone) then
        .fail (some "error: the following required arguments were not provided:")
      else .run r.inv
  | a :: more, r =>
    match readOne c r a with
    | .ok r => readArgs c more r
    | .error p => p

/-- The help a `help` command asks for: each name must be a command of the one before it. -/
def helpFor : Option (Option Command) → List String → Parsed
  | none, [] => .show programHelp
  | some none, [] => .show helpCommandHelp
  | some (some c), [] => .show (commandHelp c)
  | none, a :: more =>
    if a == "help" then helpFor (some none) more
    else match Command.ofName? a with
      | some c => helpFor (some (some c)) more
      | none => .fail (some s!"error: unrecognized subcommand \x27{a}\x27")
  | some _, a :: _ => .fail (some s!"error: unrecognized subcommand \x27{a}\x27")

/-- Whether `a` names a command, `help` included. -/
def isCommandName (a : String) : Bool := a == "help" || (Command.ofName? a).isSome

/-- The program's own switches, before the command; `escaped` after a `--`. -/
def parseFrom (escaped : Bool) : List String → Parsed
  | [] => .fail none
  | a :: more =>
    if !escaped && a == "help" then helpFor none more
    else if !escaped && (Command.ofName? a).isSome then
      match Command.ofName? a with
      | some c => readArgs c more { inv := { command := c } }
      | none => .fail none
    else if !escaped && a == "--" then parseFrom true more
    else if !escaped && a.startsWith "--" then
      let (name, value) := splitLong (a.drop 2).toString
      if name == "help" || name == "version" then
        match value with
        | some v => .fail (some
            s!"error: unexpected value \x27{v}\x27 for \x27--{name}\x27 found; no more were expected")
        | none => .show (if name == "help" then programHelp else versionText)
      else unexpected ("--" ++ name)
    else if !escaped && a.startsWith "-" && a != "-" then
      -- the first short switch decides: help and version both stop reading
      match (a.drop 1).toString.toList with
      | 'h' :: _ => .show programHelp
      | 'V' :: _ => .show versionText
      | s :: _ => unexpected s!"-{s}"
      | [] => .fail none
    else if escaped && isCommandName a then unexpected a
    else .fail (some s!"error: unrecognized subcommand \x27{a}\x27")

/-- Reads a whole command line. -/
def parse (args : List String) : Parsed := parseFrom false args

end CheckedPointers.Cli
