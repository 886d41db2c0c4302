import CheckedPointers.Data.Sorted
/-! # Declaration keys and source locations

A declaration is identified by where it is written: file, line, column and name. The same
declaration met in two compilation units (a header included twice) so gets the same key. Keys
order by file, then line, column and name; strings order by code point, which is the order of
their UTF-8 bytes.

A source location is a file, a 1-based line and a column; line 0 means unknown. -/

namespace CheckedPointers

/-- The persistent identity of a declaration. -/
structure DeclKey where
  file : String
  line : Nat
  col : Nat
  name : String
  deriving DecidableEq, Repr, Inhabited, Ord

/-- A position in a source file. -/
structure SourceLoc where
  file : String
  line : Nat
  col : Nat
  deriving DecidableEq, Repr, Inhabited

namespace SourceLoc

/-- A location points at something real when it names a file and a line. -/
def isValid (l : SourceLoc) : Bool := !l.file.isEmpty && l.line != 0

/-- `file:line:col`. -/
def display (l : SourceLoc) : String := s!"{l.file}:{l.line}:{l.col}"

end SourceLoc

namespace DeclKey

/-- The key that pairs a function definition with its declaration: `file:line:name`, with the
column left out. -/
def uniqueKey (k : DeclKey) : String := s!"{k.file}:{k.line}:{k.name}"

/-- `file:line:col:name`. -/
def display (k : DeclKey) : String := s!"{k.file}:{k.line}:{k.col}:{k.name}"

/-- Where the declaration itself is written. -/
def loc (k : DeclKey) : SourceLoc := ⟨k.file, k.line, k.col⟩

end DeclKey

end CheckedPointers
