/-! # Painted text

A report is built as a list of pieces of text, each with an optional foreground colour, and only
becomes a string at the end. Without colour a piece is its text. With colour a coloured piece is
wrapped in the ANSI select-graphic-rendition codes that set its colour and reset it afterwards,
and an uncoloured piece is its bare text. So the uncoloured rendering is the concatenation of the
texts, whatever the colours (`render_plain`). -/

namespace CheckedPointers.Diagnostic

/-- A terminal foreground colour: one of the eight basic ones, or an entry of the 256-colour
palette. -/
inductive Color where
  | yellow
  | fixed (index : Nat)
  deriving DecidableEq, Repr

namespace Color

/-- The select-graphic-rendition parameters that set the colour. -/
def code : Color → String
  | yellow => "33"
  | fixed n => s!"38;5;{n}"

/-- Colour of the report's kind and of a warning's label. -/
def warning : Color := yellow
/-- Colour of the frame and of line numbers. -/
def margin : Color := fixed 246
/-- Colour of the frame on rows that show no source line. -/
def skippedMargin : Color := fixed 240
/-- Colour of source text outside every label. -/
def unimportant : Color := fixed 249
/-- Colour of the word `Note`. -/
def note : Color := fixed 115

end Color

/-- A piece of text with an optional foreground colour. -/
structure Piece where
  text : String
  color : Option Color := none
  deriving Repr

namespace Piece

def plain (s : String) : Piece := ⟨s, none⟩

def paint (s : String) (c : Color) : Piece := ⟨s, some c⟩

/-- The piece as terminal text, with its colour codes when `colored`. -/
def render (colored : Bool) (p : Piece) : String :=
  match p.color with
  | some c => if colored then "\x1b[" ++ c.code ++ "m" ++ p.text ++ "\x1b[0m" else p.text
  | none => p.text

end Piece

/-- Pieces laid out one after another. -/
def renderPieces (colored : Bool) (ps : List Piece) : String :=
  String.join (ps.map (Piece.render colored))

theorem render_plain (ps : List Piece) :
    renderPieces false ps = String.join (ps.map Piece.text) := by
  unfold renderPieces
  congr 1
  apply List.map_congr_left
  intro p _
  unfold Piece.render
  split <;> rfl

end CheckedPointers.Diagnostic
