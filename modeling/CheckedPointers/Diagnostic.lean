import CheckedPointers.WildGroups
import CheckedPointers.Diagnostic.Report
import CheckedPointers.Text.LineIndex
/-! # Explaining a root cause

A root cause is explained by its slot, its reason and how many other pointers it makes `wild`,
at the location of its constraint or, failing that, of the declaration owning its slot. The
one-line form is used when the source text is not at hand. -/

namespace CheckedPointers

namespace Diagnostic

/-- `q3 is unchecked: <reason>`. -/
def headline (root : WildRoot) : String := s!"q{root.var} is unchecked: {root.reason}"

/-- The one-line form: `file:line:col: q3 is unchecked: <reason> (2 affected)`. -/
def plain (root : WildRoot) (loc : Option SourceLoc) (affected : Nat) : String :=
  let body := s!"{headline root} ({affected} affected)"
  match loc with
  | some l => l.display ++ ": " ++ body
  | none => body

/-- The start byte of the character holding byte `pos`, and the characters from there on; the
end of the text when `pos` is past it. -/
def charsFrom : List Char → Nat → Nat → Nat × List Char
  | [], b, _ => (b, [])
  | c :: cs, b, pos =>
    if pos < b + c.utf8Size then (b, c :: cs) else charsFrom cs (b + c.utf8Size) pos

/-- The bytes `[start, stop)` of the word at `loc`. The position `loc` names (the start of the
text when its line does not exist) is clamped to the end of the text and moved back to the start
of its character; the span runs over the letters, digits and `_` from there, or is one byte when
none follow, or empty at the end of the text. -/
def tokenSpan (source : String) (loc : SourceLoc) : Nat × Nat :=
  let len := source.utf8ByteSize
  let pos := min (((Text.LineIndex.ofString source).offset loc.line loc.col).getD 0) len
  let (start, rest) := charsFrom source.toList 0 pos
  let word := byteLength (rest.takeWhile Text.isWordChar)
  (start, if word == 0 then min (start + 1) len else start + word)

/-- The label under a root cause's word. -/
def labelText (affected : Nat) : String :=
  if affected == 0 then "forced Wild here"
  else if affected == 1 then "forced Wild here, making 1 other pointer Wild"
  else s!"forced Wild here, making {affected} other pointers Wild"

/-- A root cause drawn against the text of the file it points into: a warning on the word at
`loc`, its label counting the `affected` pointers it makes `wild` beside its own, and a note
naming its constraint. Nothing when the span is one byte of a longer character, which cannot be
drawn. -/
def render (root : WildRoot) (loc : SourceLoc) (affected : Nat) (source : String)
    (colored : Bool) : Option String :=
  let (start, stop) := tokenSpan source loc
  let report : Report :=
    { kind := "Warning", kindColor := Color.warning, message := headline root, start, stop
      label := labelText affected, labelColor := Color.warning
      note := s!"constraint {root.constraint}" }
  report.render source colored

/-- Where a root cause is shown: its constraint's location, else its declaration's. -/
def locationOf (g : WildGroups) (root : WildRoot) : Option SourceLoc :=
  root.loc.or ((g.sourceOf? root.var).map DeclKey.loc)

end Diagnostic

end CheckedPointers
