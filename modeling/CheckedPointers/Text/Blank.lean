/-! # Blank characters

The characters with the Unicode `White_Space` property: the ASCII controls tab to carriage
return, space, next line, no-break space, ogham space mark, the typographic spaces U+2000 to
U+200A, line and paragraph separators, narrow no-break space, medium mathematical space and
ideographic space. Trimming an annotation and splitting a type name into words use this class,
which is wider than `Char.isWhitespace`. -/

namespace CheckedPointers.Text

/-- The Unicode `White_Space` property. -/
def isBlank (c : Char) : Bool :=
  let n := c.toNat
  (0x09 ≤ n && n ≤ 0x0D) || n == 0x20 || n == 0x85 || n == 0xA0 || n == 0x1680 ||
    (0x2000 ≤ n && n ≤ 0x200A) || n == 0x2028 || n == 0x2029 || n == 0x202F ||
    n == 0x205F || n == 0x3000

/-- The text with its leading blanks removed. -/
def trimBlankStart (s : String) : String :=
  String.ofList (s.toList.dropWhile isBlank)

/-- The maximal runs of non-blank characters, in order. -/
def blankWords (s : String) : List String :=
  (s.toList.splitBy (fun a b => isBlank a == isBlank b)).filterMap fun run =>
    match run with
    | c :: _ => if isBlank c then none else some (String.ofList run)
    | [] => none

end CheckedPointers.Text
