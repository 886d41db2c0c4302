/-! # Line starts of a source text

A 1-based line and column name a byte of a source text. Line `n` starts after the `n-1`-th
newline byte; column 0 and column 1 both mean the line's first byte. A column past the end of
its line stops at the line's newline, or at the end of the text on the last line. Line 0 and
lines beyond the last name nothing. Offsets are 32-bit words: the line starts and the length are
kept modulo `2^32`, and the line's start plus the column is taken modulo `2^32` before it is held to
the line, so a column near `2^32` wraps around to an earlier byte. -/

namespace CheckedPointers.Text

/-- The byte offsets at which the lines of a text start, and the text's length in bytes. -/
structure LineIndex where
  starts : List Nat
  length : Nat
  deriving Repr

namespace LineIndex

/-- Offsets just after each newline byte, given the offset of the first byte of `bs`. -/
def newlineEnds : List UInt8 → Nat → List Nat
  | [], _ => []
  | b :: bs, i => if b == 10 then (i + 1) :: newlineEnds bs (i + 1) else newlineEnds bs (i + 1)

/-- Offsets and columns are 32-bit words, and their sums wrap around at this bound. -/
def wordBound : Nat := 4294967296

/-- The line index of a text: line 1 starts at 0, and every newline byte starts another line.
Starts and length are cast to 32-bit words. -/
def ofString (s : String) : LineIndex :=
  ⟨(0 :: newlineEnds s.toUTF8.toList 0).map (· % wordBound), s.utf8ByteSize % wordBound⟩

/-- The byte offset of a 1-based line and column, or `none` when the line does not exist. -/
def offset (ix : LineIndex) (line col : Nat) : Option Nat :=
  if line = 0 then none
  else
    match ix.starts[line - 1]? with
    | none => none
    | some start =>
      let stop := match ix.starts[line]? with
        | some next => (next + wordBound - 1) % wordBound
        | none => ix.length
      some (min ((start + (col - 1)) % wordBound) stop)

end LineIndex

end CheckedPointers.Text
