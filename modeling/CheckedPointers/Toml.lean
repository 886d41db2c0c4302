import CheckedPointers.Json.Parse
/-! # Flat TOML documents

Options files are TOML documents of `key = value` lines. This reader takes the part of TOML 1.0
that such a document uses: blank lines and `#` comments, bare and quoted keys, booleans,
integers (decimal with optional sign, or `0x`, `0o`, `0b`, with single underscores between
digits), the four kinds of string, and arrays that may span lines and end in a comma. A table
header, a dotted key, an inline table, a float or a date is refused here: none of them can be
read into a record whose fields are booleans, counts and lists of strings, so refusing them
early refuses the same documents. A key given twice is refused, as TOML requires. -/

namespace CheckedPointers.Toml

/-- A value of a flat document. -/
inductive Value where
  | bool (b : Bool)
  | int (n : Int)
  | str (s : String)
  | arr (items : List Value)
  deriving Repr, Inhabited

/-- Space and tab. -/
def isSpace (c : Char) : Bool := c == ' ' || c == '\t'

def skipSpaces (cs : List Char) : List Char := cs.dropWhile isSpace

/-- A character a comment may hold: tab, or anything printable. -/
def isCommentChar (c : Char) : Bool := c == '\t' || (c.toNat ≥ 0x20 && c.toNat != 0x7F)

/-- Drops a comment, if one starts here, up to its line end. -/
def skipComment : List Char → Option (List Char)
  | '#' :: rest =>
    let body := rest.takeWhile fun c => c != '\n' && c != '\r'
    if body.all isCommentChar then some (rest.drop body.length) else none
  | cs => some cs

/-- Consumes a line end (`\n` or `\r\n`); `none` if something else stands here. -/
def lineEnd : List Char → Option (List Char)
  | [] => some []
  | '\n' :: rest => some rest
  | '\r' :: '\n' :: rest => some rest
  | _ => none

def isBareKeyChar (c : Char) : Bool :=
  ('A' ≤ c && c ≤ 'Z') || ('a' ≤ c && c ≤ 'z') || ('0' ≤ c && c ≤ '9') || c == '_' || c == '-'

def hexValue? (ds : List Char) : Option Nat :=
  ds.foldlM (fun n d => (Json.Reader.hexDigit? d).map fun v => n * 16 + v) 0

/-- A Unicode scalar value from an escape, refusing surrogates and values past U+10FFFF. -/
def scalar? (n : Nat) : Option Char :=
  if (0xD800 ≤ n && n ≤ 0xDFFF) || n > 0x10FFFF then none else some (Char.ofNat n)

/-- Drops blanks and line ends, a line end being a line feed or a carriage return before one. -/
def dropBlankLines : List Char → List Char
  | '\r' :: '\n' :: rest => dropBlankLines rest
  | c :: rest => if isSpace c || c == '\n' then dropBlankLines rest else c :: rest
  | [] => []

/-- The body of a basic string after its opening quote. `multi` allows line ends, each read as
a line feed, and a backslash that ends a line. -/
def basicBody (multi : Bool) : Nat → List Char → List Char → Option (String × List Char)
  | 0, _, _ => none
  | _, [], _ => none
  | _ + 1, '"' :: '"' :: '"' :: '"' :: '"' :: rest, acc =>
    if multi then some (String.ofList ('"' :: '"' :: acc).reverse, rest)
    else some (String.ofList acc.reverse, '"' :: '"' :: '"' :: '"' :: rest)
  | _ + 1, '"' :: '"' :: '"' :: '"' :: rest, acc =>
    if multi then some (String.ofList ('"' :: acc).reverse, rest)
    else some (String.ofList acc.reverse, '"' :: '"' :: '"' :: rest)
  | _ + 1, '"' :: '"' :: '"' :: rest, acc =>
    if multi then some (String.ofList acc.reverse, rest)
    else some (String.ofList acc.reverse, '"' :: '"' :: rest)
  | fuel + 1, '"' :: rest, acc =>
    if multi then basicBody multi fuel rest ('"' :: acc) else some (String.ofList acc.reverse, rest)
  | fuel + 1, '\\' :: 'u' :: a :: b :: c :: d :: rest, acc =>
    match hexValue? [a, b, c, d] >>= scalar? with
    | some ch => basicBody multi fuel rest (ch :: acc)
    | none => none
  | fuel + 1, '\\' :: 'U' :: a :: b :: c :: d :: e :: f :: g :: h :: rest, acc =>
    match hexValue? [a, b, c, d, e, f, g, h] >>= scalar? with
    | some ch => basicBody multi fuel rest (ch :: acc)
    | none => none
  | fuel + 1, '\\' :: e :: rest, acc =>
    match e with
    | 'b' => basicBody multi fuel rest ('\x08' :: acc)
    | 't' => basicBody multi fuel rest ('\t' :: acc)
    | 'n' => basicBody multi fuel rest ('\n' :: acc)
    | 'f' => basicBody multi fuel rest ('\x0c' :: acc)
    | 'r' => basicBody multi fuel rest ('\r' :: acc)
    | '"' => basicBody multi fuel rest ('"' :: acc)
    | '\\' => basicBody multi fuel rest ('\\' :: acc)
    | _ =>
      -- a backslash ending a line drops the line end and the blanks after it
      if multi && (isSpace e || e == '\n' || e == '\r') then
        let afterSpaces := (e :: rest).dropWhile isSpace
        match afterSpaces with
        | '\n' :: _ | '\r' :: '\n' :: _ =>
          basicBody multi fuel (dropBlankLines afterSpaces) acc
        | _ => none
      else none
  | fuel + 1, '\r' :: '\n' :: rest, acc => if multi then basicBody multi fuel rest ('\n' :: acc) else none
  | fuel + 1, c :: rest, acc =>
    if c == '\n' then (if multi then basicBody multi fuel rest (c :: acc) else none)
    else if c == '\t' || (c.toNat ≥ 0x20 && c.toNat != 0x7F) then basicBody multi fuel rest (c :: acc)
    else none

/-- The body of a literal string after its opening quote; a line end in a multi-line one is read
as a line feed. -/
def literalBody (multi : Bool) : List Char → List Char → Option (String × List Char)
  | [], _ => none
  | '\'' :: '\'' :: '\'' :: '\'' :: '\'' :: rest, acc =>
    if multi then some (String.ofList ('\'' :: '\'' :: acc).reverse, rest)
    else some (String.ofList acc.reverse, '\'' :: '\'' :: '\'' :: '\'' :: rest)
  | '\'' :: '\'' :: '\'' :: '\'' :: rest, acc =>
    if multi then some (String.ofList ('\'' :: acc).reverse, rest)
    else some (String.ofList acc.reverse, '\'' :: '\'' :: '\'' :: rest)
  | '\'' :: '\'' :: '\'' :: rest, acc =>
    if multi then some (String.ofList acc.reverse, rest)
    else some (String.ofList acc.reverse, '\'' :: '\'' :: rest)
  | '\'' :: rest, acc =>
    if multi then literalBody multi rest ('\'' :: acc) else some (String.ofList acc.reverse, rest)
  | '\r' :: '\n' :: rest, acc => if multi then literalBody multi rest ('\n' :: acc) else none
  | c :: rest, acc =>
    if c == '\n' then (if multi then literalBody multi rest (c :: acc) else none)
    else if c == '\t' || (c.toNat ≥ 0x20 && c.toNat != 0x7F) then literalBody multi rest (c :: acc)
    else none

/-- Drops the line end that may follow an opening multi-line delimiter. -/
def dropFirstNewline : List Char → List Char
  | '\n' :: rest => rest
  | '\r' :: '\n' :: rest => rest
  | cs => cs

/-- A string of any of the four kinds. -/
def string? : List Char → Option (String × List Char)
  | '"' :: '"' :: '"' :: rest => basicBody true (rest.length + 1) (dropFirstNewline rest) []
  | '"' :: rest => basicBody false (rest.length + 1) rest []
  | '\'' :: '\'' :: '\'' :: rest => literalBody true (dropFirstNewline rest) []
  | '\'' :: rest => literalBody false rest []
  | _ => none

/-- Digits with single underscores between them, in the given class. -/
def digitRun? (isDigit : Char → Bool) (cs : List Char) : Option (List Char) :=
  match cs with
  | [] => none
  | c :: _ =>
    if !isDigit c then none
    else
      let ok := (cs.zip (cs.drop 1)).all fun (a, b) => !(a == '_' && b == '_')
      if ok && cs.getLast? != some '_' && cs.all (fun c => isDigit c || c == '_') then
        some (cs.filter (· != '_'))
      else none

def isDec (c : Char) : Bool := '0' ≤ c && c ≤ '9'

def digitsIn (base : Nat) (ds : List Char) : Option Nat :=
  ds.foldlM (fun n d => (Json.Reader.hexDigit? d).bind fun v => if v < base then some (n * base + v) else none) 0

/-- The largest integer TOML represents. -/
def maxInt : Nat := 9223372036854775807

/-- An integer token (everything up to a delimiter), or `none` if it is not an integer. -/
def integer? (tok : List Char) : Option Int :=
  let based (base : Nat) (isD : Char → Bool) (rest : List Char) : Option Int := do
    let ds ← digitRun? isD rest
    let n ← digitsIn base ds
    if n ≤ maxInt then some (n : Int) else none
  match tok with
  | '0' :: 'x' :: rest => based 16 (fun c => (Json.Reader.hexDigit? c).isSome) rest
  | '0' :: 'o' :: rest => based 8 (fun c => '0' ≤ c && c ≤ '7') rest
  | '0' :: 'b' :: rest => based 2 (fun c => c == '0' || c == '1') rest
  | _ =>
    let (neg, body) := match tok with
      | '-' :: r => (true, r)
      | '+' :: r => (false, r)
      | r => (false, r)
    match digitRun? isDec body with
    | none => none
    | some ds =>
      if ds.length > 1 && ds.head? == some '0' then none
      else
        let n := Json.Reader.digitsValue ds
        if neg then (if n ≤ maxInt + 1 then some (-(n : Int)) else none)
        else if n ≤ maxInt then some (n : Int) else none

/-- Blanks, line ends and comments inside an array. -/
def skipArrayBlanks : Nat → List Char → Option (List Char)
  | 0, _ => none
  | fuel + 1, cs =>
    match skipSpaces cs with
    | '#' :: _ => do
      let r ← skipComment (skipSpaces cs)
      let r ← lineEnd r
      skipArrayBlanks fuel r
    | '\n' :: r => skipArrayBlanks fuel r
    | '\r' :: '\n' :: r => skipArrayBlanks fuel r
    | r => some r

/-- Characters that end a bare value. -/
def isDelimiter (c : Char) : Bool :=
  isSpace c || c == '\n' || c == '\r' || c == '#' || c == ',' || c == ']'

mutual

/-- A value, with `fuel` bounding the nesting and the items read. -/
def value : Nat → List Char → Option (Value × List Char)
  | 0, _ => none
  | fuel + 1, cs =>
    match cs with
    | '"' :: _ | '\'' :: _ => (string? cs).map fun (s, r) => (.str s, r)
    | '[' :: rest => do
      let rest ← skipArrayBlanks (rest.length + 1) rest
      match rest with
      | ']' :: r => some (.arr [], r)
      | _ => (items fuel rest []).map fun (xs, r) => (.arr xs, r)
    | _ =>
      let tok := cs.takeWhile fun c => !isDelimiter c
      let rest := cs.drop tok.length
      if tok == ['t', 'r', 'u', 'e'] then some (.bool true, rest)
      else if tok == ['f', 'a', 'l', 's', 'e'] then some (.bool false, rest)
      else (integer? tok).map fun n => (.int n, rest)

/-- The items of a non-empty array, each followed by `,` or the closing `]`. -/
def items : Nat → List Char → List Value → Option (List Value × List Char)
  | 0, _, _ => none
  | fuel + 1, cs, acc => do
    let (v, rest) ← value fuel cs
    let rest ← skipArrayBlanks (rest.length + 1) rest
    match rest with
    | ',' :: r =>
      let r ← skipArrayBlanks (r.length + 1) r
      match r with
      | ']' :: r' => some ((v :: acc).reverse, r')
      | _ => items fuel r (v :: acc)
    | ']' :: r => some ((v :: acc).reverse, r)
    | _ => none

end

/-- A key: bare, or one quoted string. A dotted key is refused. -/
def key? (cs : List Char) : Option (String × List Char) :=
  match cs with
  | '"' :: _ | '\'' :: _ =>
    match cs with
    | '"' :: '"' :: '"' :: _ | '\'' :: '\'' :: '\'' :: _ => none
    | _ => string? cs
  | _ =>
    let k := cs.takeWhile isBareKeyChar
    if k.isEmpty then none else some (String.ofList k, cs.drop k.length)

/-- The pairs of a flat document, in order; `fuel` bounds the lines. -/
def pairs : Nat → List Char → List (String × Value) → Option (List (String × Value))
  | 0, _, _ => none
  | fuel + 1, cs, acc =>
    match skipSpaces cs with
    | [] => some acc.reverse
    | '\n' :: rest => pairs fuel rest acc
    | '\r' :: '\n' :: rest => pairs fuel rest acc
    | '#' :: _ => do
      let r ← skipComment (skipSpaces cs)
      let r ← lineEnd r
      pairs fuel r acc
    | line => do
      let (k, rest) ← key? line
      let rest := skipSpaces rest
      match rest with
      | '=' :: rest =>
        let (v, rest) ← value (rest.length + 1) (skipSpaces rest)
        let rest ← skipComment (skipSpaces rest)
        let rest ← lineEnd rest
        if acc.any (fun p => p.1 == k) then none else pairs fuel rest ((k, v) :: acc)
      | _ => none

/-- Reads a flat TOML document into its key-value pairs, in order. A byte order mark at the
start is skipped. -/
def parse? (text : String) : Option (List (String × Value)) :=
  let cs := match text.toList with
    | '\uFEFF' :: rest => rest
    | cs => cs
  pairs (cs.length + 1) cs []

end CheckedPointers.Toml
