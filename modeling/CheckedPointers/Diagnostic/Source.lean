import CheckedPointers.Text.Blank
/-! # Lines of a source text

A report shows source text line by line. A line ends after a line break: carriage return, line
feed, vertical tab, form feed, next line, line separator or paragraph separator, and a carriage
return directly followed by a line feed ends a single line. The last line needs no break, and
the empty text still has one empty line. Each line records where it starts and how long it is,
both in characters and in bytes, so that a byte offset can be placed on a line and turned into a
character column. -/

namespace CheckedPointers.Diagnostic

/-- The characters that end a line. -/
def isLineBreak (c : Char) : Bool :=
  c == '\r' || c == '\n' || c == '\x0B' || c == '\x0C' || c == '\u0085' || c == '\u2028' ||
    c == '\u2029'

/-- The text cut after every line break, `cur` holding the reversed start of the current line. -/
def splitLines : List Char → List Char → List (List Char)
  | [], [] => []
  | [], cur => [cur.reverse]
  | '\r' :: '\n' :: rest, cur => ('\n' :: '\r' :: cur).reverse :: splitLines rest []
  | c :: rest, cur =>
    if isLineBreak c then (c :: cur).reverse :: splitLines rest [] else splitLines rest (c :: cur)

/-- Bytes of the UTF-8 encoding of the characters. -/
def byteLength (cs : List Char) : Nat := cs.foldl (fun n c => n + c.utf8Size) 0

/-- Whether byte `b` of the encoded characters is where one of them starts, or where they end. -/
def isCharBoundary : List Char → Nat → Bool
  | [], b => b == 0
  | c :: cs, b => b == 0 || (c.utf8Size ≤ b && isCharBoundary cs (b - c.utf8Size))

/-- A line: its characters, terminator included, and its start in characters and in bytes. -/
structure Line where
  chars : List Char
  offset : Nat
  byteOffset : Nat
  deriving Repr

namespace Line

def charLen (l : Line) : Nat := l.chars.length

def byteLen (l : Line) : Nat := byteLength l.chars

/-- How many characters start before byte `col` of the line. -/
def charsBefore (l : Line) (col : Nat) : Nat :=
  let rec go : List Char → Nat → Nat
    | [], _ => 0
    | c :: cs, pos => if pos < col then go cs (pos + c.utf8Size) + 1 else 0
  go l.chars 0

/-- The line without its trailing blanks, line break included. -/
def trimmed (l : Line) : List Char := (l.chars.reverse.dropWhile Text.isBlank).reverse

end Line

/-- A source text cut into lines. -/
structure SourceText where
  lines : List Line
  charLen : Nat
  byteLen : Nat
  deriving Repr

namespace SourceText

/-- Lines in order, each starting where the one before ends. -/
def place : List (List Char) → Nat → Nat → List Line
  | [], _, _ => []
  | l :: ls, c, b => ⟨l, c, b⟩ :: place ls (c + l.length) (b + byteLength l)

def ofString (s : String) : SourceText :=
  let parts := match splitLines s.toList [] with
    | [] => [[]]
    | ps => ps
  ⟨place parts 0 0, s.length, s.utf8ByteSize⟩

/-- The line holding byte `b`, with its index and the byte's column in it. An offset at a line's
start belongs to that line; the end of the text belongs to the last line. -/
def byteLine? (t : SourceText) (b : Nat) : Option (Nat × Line × Nat) :=
  if b ≤ t.byteLen then
    let idx := (t.lines.filter (·.byteOffset ≤ b)).length - 1
    t.lines[idx]?.map fun l => (idx, l, b - l.byteOffset)
  else none

/-- The line holding character `c`, with its index and the character's column in it. -/
def charLine? (t : SourceText) (c : Nat) : Option (Nat × Line × Nat) :=
  if c ≤ t.charLen then
    let idx := (t.lines.filter (·.offset ≤ c)).length - 1
    t.lines[idx]?.map fun l => (idx, l, c - l.offset)
  else none

/-- The character offset of byte `b`, counted through the line that holds it. -/
def charOffset? (t : SourceText) (b : Nat) : Option (Nat × Nat) :=
  (t.byteLine? b).map fun (idx, l, col) => (idx, l.offset + l.charsBefore col)

end SourceText

end CheckedPointers.Diagnostic
