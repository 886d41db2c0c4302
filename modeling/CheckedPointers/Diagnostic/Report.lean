import CheckedPointers.Diagnostic.Paint
import CheckedPointers.Diagnostic.Source
import CheckedPointers.Text.Alphanumeric
import CheckedPointers.Text.Width
/-! # Source reports

A report explains one span of a source text: a headline naming its kind, a frame with the
position of the span, the source line holding it with the span picked out, an arrow from the
span to a label message, and a closing note. For a span of `x` in `int x;`:

    Warning: q3 is unchecked: cast to an incompatible pointer type
       ╭─[ <unknown>:1:5 ]
       │
     1 │ int x;
       │     ┬
       │     ╰── forced Wild here
       │
       │ Note: constraint 3
    ───╯

Spans are given in bytes and drawn in characters; a span can be drawn only when its ends fall
between characters (an empty span needs only its start to). The marker row underlines the span with `─`
and puts `┬` under its middle character (`│` for an empty span); the arrow row turns from there
to the message. Columns are terminal columns: a tab reaches the next multiple of four, a wide
character takes two and a combining mark none, and the marker and arrow rows widen the same
way under each character of the line. The line numbers take as many digits as the last one
shown. -/

namespace CheckedPointers.Diagnostic

/-- A labelled span of a source text, with the report's headline and note. -/
structure Report where
  /-- The kind of report, such as `Warning`. -/
  kind : String
  kindColor : Color
  message : String
  /-- The labelled bytes, `[start, stop)`. -/
  start : Nat
  stop : Nat
  label : String
  labelColor : Color
  note : String

/-- `n` spaces. -/
def spaces (n : Nat) : String := String.ofList (List.replicate n ' ')

/-- How a character of a source line is shown at character column `col`, and how many terminal
columns it takes there. -/
def cell (c : Char) (col : Nat) : Char × Nat :=
  if c == '\t' then (' ', (col / 4 + 1) * 4 - col)
  else if Text.isBlank c then (' ', 1)
  else (c, Text.columns c)

/-- The width of each character column `0 … n-1` under a line: the width of the line's character
there, and one past the line's end. -/
def columnWidths (chars : List Char) (n : Nat) : List Nat :=
  (List.range n).map fun col => match chars[col]? with
    | some c => (cell c col).2
    | none => 1

/-- Where the span lands: its characters `[start, stop)`, and the index of its line. -/
structure Placed where
  start : Nat
  stop : Nat
  line : Nat

/-- The span of bytes `[b, e)`, placed in characters. The last byte decides where it ends. -/
def place (t : SourceText) (b e : Nat) : Option Placed := do
  let (line, start) ← t.charOffset? b
  if e ≤ b then return ⟨start, start, line⟩
  let (_, l, col) ← t.byteLine? (e - 1)
  return ⟨start, l.offset + l.charsBefore (col + 1), line⟩

namespace Report

/-- The frame's left part on a row showing source line `idx` (0-based). -/
def numberMargin (width idx : Nat) : List Piece :=
  let n := toString (idx + 1)
  [.plain " ", .paint (spaces (width - n.length) ++ n ++ " │") Color.margin, .plain " "]

/-- The frame's left part on any other row. -/
def blankMargin (width : Nat) : List Piece :=
  [.plain " ", .paint (spaces (width + 1) ++ "│") Color.skippedMargin, .plain " "]

/-- The characters of a source line, each in the label's colour when the span covers it. -/
def lineCells (r : Report) (p : Placed) (l : Line) : List Piece :=
  (l.trimmed.zipIdx).flatMap fun (c, col) =>
    let color := if p.start ≤ l.offset + col && l.offset + col < p.stop then r.labelColor
      else Color.unimportant
    let (shown, w) := cell c col
    if Text.isBlank shown then List.replicate w (.paint " " color) else [.paint shown.toString color]

/-- The row under the line: the span underlined, with a stem under its middle. -/
def markerRow (r : Report) (p : Placed) (l : Line) (mid n : Nat) : List Piece :=
  (columnWidths l.trimmed n).zipIdx.flatMap fun (w, col) =>
    let under := p.start ≤ l.offset + col && l.offset + col < p.stop
    let (c, tail, colored) :=
      if col == mid then (if under then ("┬", "─", true) else ("│", " ", true))
      else if under then ("─", "─", true)
      else (" ", " ", false)
    let piece := fun (s : String) => if colored then Piece.paint s r.labelColor else Piece.plain s
    (List.range w).map fun i => piece (if i == 0 then c else tail)

/-- The row that turns from the stem to the label message. -/
def arrowRow (r : Report) (l : Line) (mid n : Nat) : List Piece :=
  (columnWidths l.trimmed n).zipIdx.flatMap fun (w, col) =>
    let (c, tail, colored) :=
      if col == mid then ("╰", "─", true)
      else if col > mid then ("─", "─", true)
      else (" ", " ", false)
    let piece := fun (s : String) => if colored then Piece.paint s r.labelColor else Piece.plain s
    (if w > 0 then [piece c] else []) ++ (List.replicate (w - 1) (piece tail))

/-- The rows of one source line: the line itself and, when the span lies on it, its marker and
arrow rows. A line the span misses shows as an empty frame row. -/
def lineRows (r : Report) (p : Placed) (width idx : Nat) (l : Line) : List Piece :=
  let newline := Piece.plain "\n"
  if l.offset ≤ p.start && p.stop ≤ l.offset + l.charLen then
    let mid := (p.start + p.stop) / 2 - l.offset
    let n := (p.stop - l.offset) + 2
    numberMargin width idx ++ r.lineCells p l ++ [newline] ++
      blankMargin width ++ r.markerRow p l mid n ++ [newline] ++
      blankMargin width ++ r.arrowRow l mid n ++ [.plain (" " ++ r.label), newline]
  else blankMargin width ++ [newline]

/-- The report as painted pieces, drawn against the source text. -/
def pieces (r : Report) (t : SourceText) : List Piece :=
  let newline := Piece.plain "\n"
  let p := (place t r.start r.stop).getD ⟨0, 0, 0⟩
  let first := ((t.charLine? p.start).map (·.1)).getD 0
  let last := ((t.charLine? (max (p.stop - 1) p.start)).map (·.1 + 1)).getD t.lines.length
  let width := (toString last).length
  let position := match t.byteLine? r.start with
    | some (idx, l, col) => s!"{idx + 1}:{l.charsBefore col + 1}"
    | none => "?:?"
  let shown := ((t.lines.zipIdx.drop first).take (last - first))
  let body := shown.flatMap fun (l, idx) => r.lineRows p width idx l
  [.paint (r.kind ++ ":") r.kindColor, .plain (" " ++ r.message), newline,
    .plain (spaces (width + 2)), .paint "╭" Color.margin, .paint "─" Color.margin,
    .paint "[" Color.margin, .plain (" <unknown>:" ++ position ++ " "), .paint "]" Color.margin,
    newline, .plain (spaces (width + 2)), .paint "│" Color.margin, newline] ++
  body ++
  blankMargin width ++ [newline] ++
  blankMargin width ++ [.paint "Note" Color.note, .plain (": " ++ r.note), newline,
    .paint (String.ofList (List.replicate (width + 2) '─') ++ "╯") Color.margin, newline]

/-- Whether the span's ends fall between characters of the text, as drawing requires. -/
def fitsCharacters (r : Report) (source : String) : Bool :=
  let cs := source.toList
  isCharBoundary cs r.start && (r.stop ≤ r.start || isCharBoundary cs r.stop)

/-- The report as terminal text, coloured or not; nothing when its span cuts a character. -/
def render (r : Report) (source : String) (colored : Bool) : Option String :=
  if r.fitsCharacters source then some (renderPieces colored (r.pieces (SourceText.ofString source)))
  else none

end Report

end CheckedPointers.Diagnostic
