import CheckedPointers.Json.Basic
/-! # Reading JSON text

The grammar is RFC 8259: blanks are space, tab, newline and carriage return; a string holds no
raw control character, and a `\u` escape of a high surrogate must be followed by one of a low
surrogate; a number has no leading zero, no leading `+`, and digits on both sides of a point.
Arrays and objects may nest at most 127 deep, and nothing but blanks may follow the value.

The reader works on the text's characters. Every call of its loops is made with less fuel than
its caller, and the fuel is twice the length of the text: each nested call consumes a character
before the next one. -/

namespace CheckedPointers.Json

namespace Reader

/-- Nesting at this depth is refused. -/
def depthLimit : Nat := 128

def isBlank (c : Char) : Bool := c == ' ' || c == '\t' || c == '\n' || c == '\r'

def skipBlanks (cs : List Char) : List Char := cs.dropWhile isBlank

def hexDigit? (c : Char) : Option Nat :=
  if '0' ≤ c && c ≤ '9' then some (c.toNat - '0'.toNat)
  else if 'a' ≤ c && c ≤ 'f' then some (c.toNat - 'a'.toNat + 10)
  else if 'A' ≤ c && c ≤ 'F' then some (c.toNat - 'A'.toNat + 10)
  else none

/-- Four hex digits as a number. -/
def hex4? (a b c d : Char) : Option Nat := do
  let a ← hexDigit? a
  let b ← hexDigit? b
  let c ← hexDigit? c
  let d ← hexDigit? d
  return ((a * 16 + b) * 16 + c) * 16 + d

/-- The body of a string after its opening quote, up to and without the closing quote. -/
def stringBody : List Char → List Char → Option (String × List Char)
  | [], _ => none
  | '"' :: rest, acc => some (String.ofList acc.reverse, rest)
  | '\\' :: 'u' :: a :: b :: c :: d :: rest, acc =>
    match hex4? a b c d with
    | none => none
    | some n =>
      if 0xDC00 ≤ n && n ≤ 0xDFFF then none
      else if 0xD800 ≤ n && n ≤ 0xDBFF then
        match rest with
        | '\\' :: 'u' :: e :: f :: g :: h :: rest' =>
          match hex4? e f g h with
          | some m =>
            if 0xDC00 ≤ m && m ≤ 0xDFFF then
              stringBody rest' (Char.ofNat (0x10000 + (n - 0xD800) * 0x400 + (m - 0xDC00)) :: acc)
            else none
          | none => none
        | _ => none
      else stringBody rest (Char.ofNat n :: acc)
  | '\\' :: e :: rest, acc =>
    match e with
    | '"' => stringBody rest ('"' :: acc)
    | '\\' => stringBody rest ('\\' :: acc)
    | '/' => stringBody rest ('/' :: acc)
    | 'b' => stringBody rest ('\x08' :: acc)
    | 'f' => stringBody rest ('\x0c' :: acc)
    | 'n' => stringBody rest ('\n' :: acc)
    | 'r' => stringBody rest ('\r' :: acc)
    | 't' => stringBody rest ('\t' :: acc)
    | _ => none
  | c :: rest, acc => if c.toNat < 0x20 then none else stringBody rest (c :: acc)

def isDigit (c : Char) : Bool := '0' ≤ c && c ≤ '9'

/-- The digits of a natural number. -/
def digitsValue (ds : List Char) : Nat := ds.foldl (fun n d => n * 10 + (d.toNat - '0'.toNat)) 0

/-- `2^63`: the largest magnitude of a negative 64-bit integer. -/
def negativeBound : Nat := 9223372036854775808

/-- `2^64`: one past the largest unsigned 64-bit integer. -/
def wordBound : Nat := 18446744073709551616

/-! ## The range of numbers

A number that is not kept as an integer is read as a double: its digits become a 64-bit
significand and a decimal exponent, and the double is the significand, rounded, times the
power of ten, rounded, rounded once more. A number whose double would be infinite is refused. -/

/-- The largest unsigned 64-bit integer. -/
def wordMax : Nat := wordBound - 1

/-- Whether another digit `d` still fits a 64-bit significand `s`. -/
def extends64 (s d : Nat) : Bool := s * 10 + d ≤ wordMax

def digitValue (c : Char) : Nat := c.toNat - '0'.toNat

/-- Integer digits go into the significand while it fits in 64 bits; each digit after the first
that does not fit raises the exponent instead. -/
def integerPart (ds : List Char) : Nat × Nat :=
  let step := fun (acc : Nat × Nat × Bool) (c : Char) =>
    let (s, e, full) := acc
    if !full && extends64 s (digitValue c) then (s * 10 + digitValue c, e, false) else (s, e + 1, true)
  let (s, e, _) := ds.foldl step (0, 0, false)
  (s, e)

/-- Fraction digits go into the significand while it fits, each lowering the exponent; the
first that does not fit ends the reading. -/
def fractionPart (s : Nat) (ds : List Char) : Nat × Nat :=
  let step := fun (acc : Nat × Nat × Bool) (c : Char) =>
    let (s, k, stopped) := acc
    if !stopped && extends64 s (digitValue c) then (s * 10 + digitValue c, k + 1, false)
    else (s, k, true)
  let (s, k, _) := ds.foldl step (s, 0, false)
  (s, k)

/-- `n` rounded to 53 significant bits, ties to even: the double nearest to `n`. -/
def roundToDouble (n : Nat) : Nat :=
  let k := n.log2 + 1 - 53
  if k = 0 then n
  else
    let unit := Nat.pow 2 k
    let m := n / unit
    let r := n % unit
    let half := Nat.pow 2 (k - 1)
    (if r > half || (r == half && m % 2 == 1) then m + 1 else m) * unit

/-- The smallest product that rounds to an infinite double. -/
def overflowBound : Nat := Nat.pow 2 1024 - Nat.pow 2 970

/-- The largest 32-bit signed integer, where an exponent's digits stop being read. -/
def exponentMax : Nat := 2147483647

/-- Whether a number with these digits (the exponent given by its sign and digits) has a finite
double. A zero significand, a negative exponent and an exponent written with too many digits
after a minus are always finite; a positive exponent past 308 or written with too many digits is
infinite; otherwise the rounded significand times the rounded power of ten must stay below
`overflowBound`. -/
def isFinite (intDigits fracDigits : List Char) (expNegative : Bool) (expDigits : List Char) : Bool :=
  let (s, extra) := integerPart intDigits
  let (s, taken) := fractionPart s fracDigits
  let written := digitsValue expDigits
  if s == 0 then true
  else if written > exponentMax then expNegative
  else
    let e : Int := (extra : Int) - taken + (if expNegative then -(written : Int) else written)
    if e < 0 then true
    else if e > 308 then false
    else roundToDouble s * roundToDouble (Nat.pow 10 e.toNat) < overflowBound

/-- A number: an integer in `[-2^63, 2^64)` without fraction or exponent (and not `-0`) is kept
as an integer, any other number as its text; a number whose double is infinite is refused. -/
def number (cs : List Char) : Option (Json × List Char) :=
  let (neg, cs1) := match cs with
    | '-' :: r => (true, r)
    | r => (false, r)
  let intDigits := cs1.takeWhile isDigit
  let afterInt := cs1.dropWhile isDigit
  if intDigits.isEmpty then none
  else if intDigits.length > 1 && intDigits.head? == some '0' then none
  else
    let (fracOk, fracDigits, afterFrac) := match afterInt with
      | '.' :: r =>
        let ds := r.takeWhile isDigit
        (!ds.isEmpty, ds, r.dropWhile isDigit)
      | r => (true, [], r)
    if !fracOk then none
    else
      let (expOk, expPart, afterExp) := match afterFrac with
        | e :: r =>
          if e == 'e' || e == 'E' then
            let (sign, r') := match r with
              | '+' :: r' => (['+'], r')
              | '-' :: r' => (['-'], r')
              | r' => ([], r')
            let ds := r'.takeWhile isDigit
            (!ds.isEmpty, e :: sign ++ ds, r'.dropWhile isDigit)
          else (true, [], afterFrac)
        | [] => (true, [], [])
      if !expOk then none
      else
        let text := (if neg then ['-'] else []) ++ intDigits ++
          (if fracDigits.isEmpty then [] else '.' :: fracDigits) ++ expPart
        let n := digitsValue intDigits
        let asInt :=
          if !fracDigits.isEmpty || !expPart.isEmpty then none
          else if neg then (if n == 0 || n > negativeBound then none else some (-(n : Int)))
          else if n < wordBound then some (n : Int) else none
        let expNegative := expPart.contains '-'
        let expDigits := expPart.filter isDigit
        match asInt with
        | some i => some (.int i, afterExp)
        | none =>
          if isFinite intDigits fracDigits expNegative expDigits then
            some (.float (String.ofList text), afterExp)
          else none

/-- Expects the literal word `w` at the front. -/
def literal (w : List Char) (v : Json) (cs : List Char) : Option (Json × List Char) :=
  if w.isPrefixOf cs then some (v, cs.drop w.length) else none

mutual

/-- A value after blanks, with `depth` containers open around it. -/
def value : Nat → Nat → List Char → Option (Json × List Char)
  | 0, _, _ => none
  | fuel + 1, depth, cs =>
    match skipBlanks cs with
    | '{' :: rest =>
      if depth + 1 ≥ depthLimit then none
      else
        match skipBlanks rest with
        | '}' :: rest' => some (.obj [], rest')
        | _ => (members fuel (depth + 1) rest []).map fun (ms, r) => (.obj ms, r)
    | '[' :: rest =>
      if depth + 1 ≥ depthLimit then none
      else
        match skipBlanks rest with
        | ']' :: rest' => some (.arr [], rest')
        | _ => (items fuel (depth + 1) rest []).map fun (xs, r) => (.arr xs, r)
    | '"' :: rest => (stringBody rest []).map fun (s, r) => (.str s, r)
    | 't' :: _ => literal ['t', 'r', 'u', 'e'] (.bool true) (skipBlanks cs)
    | 'f' :: _ => literal ['f', 'a', 'l', 's', 'e'] (.bool false) (skipBlanks cs)
    | 'n' :: _ => literal ['n', 'u', 'l', 'l'] .null (skipBlanks cs)
    | c :: _ => if c == '-' || isDigit c then number (skipBlanks cs) else none
    | [] => none

/-- The items of a non-empty array, each followed by `,` or the closing `]`. -/
def items : Nat → Nat → List Char → List Json → Option (List Json × List Char)
  | 0, _, _, _ => none
  | fuel + 1, depth, cs, acc =>
    match value fuel depth cs with
    | none => none
    | some (v, rest) =>
      match skipBlanks rest with
      | ',' :: rest' => items fuel depth rest' (v :: acc)
      | ']' :: rest' => some ((v :: acc).reverse, rest')
      | _ => none

/-- The members of a non-empty object, each followed by `,` or the closing `}`. -/
def members : Nat → Nat → List Char → List (String × Json) →
    Option (List (String × Json) × List Char)
  | 0, _, _, _ => none
  | fuel + 1, depth, cs, acc =>
    match skipBlanks cs with
    | '"' :: rest =>
      match stringBody rest [] with
      | none => none
      | some (k, rest) =>
        match skipBlanks rest with
        | ':' :: rest =>
          match value fuel depth rest with
          | none => none
          | some (v, rest) =>
            match skipBlanks rest with
            | ',' :: rest' => members fuel depth rest' ((k, v) :: acc)
            | '}' :: rest' => some (((k, v) :: acc).reverse, rest')
            | _ => none
        | _ => none
    | _ => none

end

end Reader

/-- Reads a JSON text: one value with nothing but blanks around it. -/
def parse? (s : String) : Option Json :=
  let cs := s.toList
  match Reader.value (2 * cs.length + 2) 0 cs with
  | some (v, rest) => if (Reader.skipBlanks rest).isEmpty then some v else none
  | none => none

end CheckedPointers.Json
