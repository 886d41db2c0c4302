import CheckedPointers.Program.Lookup
import CheckedPointers.Json.Basic
/-! # Counts of solved qualifiers per file

Each file named by a declaration key gets one row, in file order. A row counts each slot reachable
from the file's declarations once, whatever the file's rewritability, in the column of its solved
qualifier; the summary row adds the rows up. In verbose mode the settings that shaped the run
come first.

The text form is a pipe-separated table: the settings lines, a header, one line per file and the
summary, each ending in a newline. -/

namespace CheckedPointers

/-- The counts of one file. -/
structure FileStats where
  file : String
  /-- Slots owned by declarations in the file. -/
  constraints : Nat := 0
  ptr : Nat := 0
  ntarr : Nat := 0
  arr : Nat := 0
  wild : Nat := 0
  deriving Inhabited, DecidableEq

namespace FileStats

/-- Counts one more slot with this qualifier. -/
def add (s : FileStats) : Qualifier → FileStats
  | .ptr => { s with constraints := s.constraints + 1, ptr := s.ptr + 1 }
  | .ntArr => { s with constraints := s.constraints + 1, ntarr := s.ntarr + 1 }
  | .arr => { s with constraints := s.constraints + 1, arr := s.arr + 1 }
  | .wild => { s with constraints := s.constraints + 1, wild := s.wild + 1 }

/-- Adds another row's counts. -/
def absorb (s o : FileStats) : FileStats :=
  { s with constraints := s.constraints + o.constraints, ptr := s.ptr + o.ptr,
           ntarr := s.ntarr + o.ntarr, arr := s.arr + o.arr, wild := s.wild + o.wild }

def toJson (s : FileStats) : Json :=
  .obj [("file", .str s.file), ("constraints", .num s.constraints), ("ptr", .num s.ptr),
    ("ntarr", .num s.ntarr), ("arr", .num s.arr), ("wild", .num s.wild)]

end FileStats

/-- The options that shaped a run. -/
structure Settings where
  mergeMultipleFuncDecls : Bool
  handleVarargs : Bool
  deriving Inhabited, DecidableEq

/-- Rows per file, the summary, and the settings in verbose mode. -/
structure Stats where
  settings : Option Settings
  files : List FileStats
  summary : FileStats
  deriving Inhabited

namespace Stats

/-- The counts of a program against its constraint store. -/
def compute (p : Program) : Stats :=
  let files := p.slotsByFile.toList.map fun (file, slots) =>
    slots.toList.foldl (fun s v => s.add (p.store.assignment v)) { file := file }
  let summary := files.foldl FileStats.absorb { file := "Summary" }
  let o := p.options
  let settings := if o.verbose then some ⟨!o.separateMultipleFuncDecls, o.handleVarargs⟩ else none
  ⟨settings, files, summary⟩

/-- The pipe-separated table. -/
def render (s : Stats) : String :=
  let settings := match s.settings with
    | some st => s!"merge multiple function declarations: {st.mergeMultipleFuncDecls}\n" ++
        s!"handle varargs: {st.handleVarargs}\n"
    | none => ""
  let row := fun (f : FileStats) =>
    f.file ++ "|" ++ toString f.constraints ++ "|" ++ toString f.ptr ++ "|" ++ toString f.ntarr ++
      "|" ++ toString f.arr ++ "|" ++ toString f.wild ++ "\n"
  settings ++ "file|#constraints|#ptr|#ntarr|#arr|#wild\n" ++ String.join ((s.files ++ [s.summary]).map row)

def settingsJson (st : Settings) : Json :=
  .obj [("merge_multiple_func_decls", .bool st.mergeMultipleFuncDecls), ("handle_varargs", .bool st.handleVarargs)]

/-- The record form: settings when present, the rows, the summary. -/
def toJson (s : Stats) : Json :=
  .obj ((match s.settings with | some st => [("settings", settingsJson st)] | none => []) ++
    [("files", .arr (s.files.map FileStats.toJson)), ("summary", s.summary.toJson)])

end Stats

end CheckedPointers
