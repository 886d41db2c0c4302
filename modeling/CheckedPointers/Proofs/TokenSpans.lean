import Mathlib
import CheckedPointers.Diagnostic

/-!
# The word under a location

A report underlines the word at a location (`Diagnostic.tokenSpan`). The location names a byte
(`Diagnostic.located`): the line index's offset, or the start of the text for a line that does not
exist, held to the end of the text. The span starts at the character holding that byte, and covers
the letters, digits and `_` from there (`Diagnostic.tokenSpan_eq`).

When that run is empty, the span is one byte, or nothing at the end of the text. One byte is one
character exactly when the character there is ASCII; otherwise the span ends inside it. So the
span covers a whole word or a whole character when the located byte is not the end of the text and
the character holding it is part of a word or a single byte (`Diagnostic.tokenSpan_covers_token`);
a non-ASCII symbol there, or a location past the end, breaks it
(`Diagnostic.tokenSpan_cuts_symbol_or_misses_end`).
-/

namespace CheckedPointers.Diagnostic

open Text

/-! ## Bytes of characters -/

theorem byteLength_eq_sum (cs : List Char) : byteLength cs = (cs.map Char.utf8Size).sum := by
  unfold byteLength
  -- the fold adds the sizes to what it started from
  suffices h : ∀ n, cs.foldl (fun n c => n + c.utf8Size) n = n + (cs.map Char.utf8Size).sum by
    simpa using h 0
  induction cs with
  | nil => simp
  | cons c cs ih => intro n; simp [ih]; omega

@[simp] theorem byteLength_nil : byteLength [] = 0 := rfl

@[simp] theorem byteLength_append (a b : List Char) : byteLength (a ++ b) = byteLength a + byteLength b := by
  simp [byteLength_eq_sum]

@[simp] theorem byteLength_cons (c : Char) (cs : List Char) : byteLength (c :: cs) = c.utf8Size + byteLength cs := by
  simp [byteLength_eq_sum]

theorem byteLength_eq_zero {cs : List Char} : byteLength cs = 0 ↔ cs = [] := by
  cases cs with
  | nil => simp
  | cons c cs => simp [Nat.ne_of_gt c.utf8Size_pos]

theorem byteLength_toList (s : String) : byteLength s.toList = s.utf8ByteSize := by
  rw [← String.ofList_toList (s := s), String.toList_ofList]
  induction s.toList with
  | nil => simp
  | cons c cs ih => simp [String.ofList_cons, String.utf8ByteSize_append, ih]

/-! ## The character holding a byte -/

theorem charsFrom_eq (pos : Nat) :
    ∀ (cs : List Char) (b : Nat), b ≤ pos → ∃ pre rest, cs = pre ++ rest ∧
      charsFrom cs b pos = (b + byteLength pre, rest) ∧ b + byteLength pre ≤ pos ∧
      ∀ c more, rest = c :: more → pos < b + byteLength pre + c.utf8Size
  | [], b, _ => ⟨[], [], rfl, rfl, by simpa using ‹b ≤ pos›, fun _ _ h => nomatch h⟩
  | c :: cs, b, hb => by
    by_cases hc : pos < b + c.utf8Size
    · refine ⟨[], c :: cs, rfl, by simp [charsFrom, hc], by simpa using hb, ?_⟩
      rintro c' more ⟨⟩
      simpa using hc
    · obtain ⟨pre, rest, rfl, hwalk, hle, hlt⟩ := charsFrom_eq pos cs (b + c.utf8Size) (by omega)
      refine ⟨c :: pre, rest, rfl, ?_, by simp; omega, fun c' more h => by have := hlt c' more h; simp; omega⟩
      rw [charsFrom, if_neg hc, hwalk]
      simp
      omega

/-- The byte a location names in a text: the line index's offset, or the start of the text when
its line does not exist, held to the end of the text. -/
def located (source : String) (loc : SourceLoc) : Nat :=
  min (((LineIndex.ofString source).offset loc.line loc.col).getD 0) source.utf8ByteSize

theorem tokenSpan_of_charsFrom {source : String} {loc : SourceLoc} {start : Nat} {rest : List Char}
    (h : charsFrom source.toList 0 (located source loc) = (start, rest)) :
    tokenSpan source loc = (start,
      if rest.takeWhile isWordChar = [] then min (start + 1) source.utf8ByteSize
      else start + byteLength (rest.takeWhile isWordChar)) := by
  simp only [tokenSpan]
  rw [show min (((LineIndex.ofString source).offset loc.line loc.col).getD 0) source.utf8ByteSize =
    located source loc from rfl, h]
  simp only [beq_iff_eq, byteLength_eq_zero]

/-- The span starts at the character holding the located byte; it covers the letters, digits and
`_` from there, or, when there are none, one byte, or nothing at the end of the text. -/
theorem tokenSpan_eq (source : String) (loc : SourceLoc) :
    ∃ pre rest, source.toList = pre ++ rest ∧ (tokenSpan source loc).1 = byteLength pre ∧
      byteLength pre ≤ located source loc ∧
      (∀ c more, rest = c :: more → located source loc < byteLength pre + c.utf8Size) ∧
      (tokenSpan source loc).2 =
        if rest.takeWhile isWordChar = [] then min (byteLength pre + 1) source.utf8ByteSize
        else byteLength pre + byteLength (rest.takeWhile isWordChar) := by
  obtain ⟨pre, rest, hsplit, hwalk, hle, hlt⟩ := charsFrom_eq (located source loc) source.toList 0 (Nat.zero_le _)
  rw [Nat.zero_add] at hwalk
  rw [tokenSpan_of_charsFrom hwalk]
  exact ⟨pre, rest, hsplit, rfl, by simpa using hle, fun c more h => by simpa using hlt c more h, rfl⟩

/-- The span at a located letter, digit, `_` or single byte covers the run of word characters
starting there, or the one character there. -/
theorem tokenSpan_covers_token (source : String) (loc : SourceLoc)
    (hend : located source loc < source.utf8ByteSize)
    (hchar : ∀ pre c post, source.toList = pre ++ c :: post → byteLength pre ≤ located source loc →
      located source loc < byteLength pre + c.utf8Size → isWordChar c = true ∨ c.utf8Size = 1) :
    (tokenSpan source loc).1 < (tokenSpan source loc).2 ∧ (tokenSpan source loc).2 ≤ source.utf8ByteSize ∧
      ∃ pre mid post, source.toList = pre ++ mid ++ post ∧ byteLength pre = (tokenSpan source loc).1 ∧
        byteLength (pre ++ mid) = (tokenSpan source loc).2 ∧
        ((mid ≠ [] ∧ (mid ++ post).takeWhile isWordChar = mid) ∨ ∃ c, mid = [c] ∧ isWordChar c = false) := by
  obtain ⟨pre, rest, hsplit, hstart, hle, hlt, hstop⟩ := tokenSpan_eq source loc
  have hlen : source.utf8ByteSize = byteLength pre + byteLength rest := by
    rw [← byteLength_toList, hsplit, byteLength_append]
  -- a byte before the end is held by some character
  obtain ⟨c, more, rfl⟩ : ∃ c more, rest = c :: more := by
    cases rest with
    | nil => simp at hlen; omega
    | cons c more => exact ⟨c, more, rfl⟩
  by_cases hw : (c :: more).takeWhile isWordChar = []
  · -- no word starts here: the character holding the byte is one byte long
    have hc : isWordChar c = false := by simpa [List.takeWhile_cons] using hw
    have hone : c.utf8Size = 1 := (hchar pre c more hsplit hle (hlt c more rfl)).resolve_left (by simp [hc])
    rw [if_pos hw] at hstop
    simp only [byteLength_cons, hone] at hlen
    refine ⟨by omega, by omega, pre, [c], more, by simp [hsplit], hstart.symm, ?_, .inr ⟨c, rfl, hc⟩⟩
    simp [hstop, hone]
    omega
  · -- the run of word characters, and what follows it
    rw [if_neg hw] at hstop
    have hpos : 0 < byteLength ((c :: more).takeWhile isWordChar) :=
      Nat.pos_of_ne_zero (mt byteLength_eq_zero.1 hw)
    have hrest := List.takeWhile_append_dropWhile (p := isWordChar) (l := c :: more)
    have hrun : byteLength (c :: more) = byteLength ((c :: more).takeWhile isWordChar) +
        byteLength ((c :: more).dropWhile isWordChar) := by
      rw [← byteLength_append, hrest]
    refine ⟨by omega, by omega, pre, (c :: more).takeWhile isWordChar, (c :: more).dropWhile isWordChar,
      by rw [List.append_assoc, hrest, hsplit], hstart.symm, by simp [hstop], .inl ⟨hw, ?_⟩⟩
    rw [hrest]

/-- Inside the `é` of `/* é */ int *p;`, a letter of two bytes: the span moves back to its start
and covers it. -/
theorem tokenSpan_covers_token_of_accented_letter :
    located "/* é */ int *p;\n" ⟨"a.c", 1, 5⟩ < "/* é */ int *p;\n".utf8ByteSize ∧
      (tokenSpan "/* é */ int *p;\n" ⟨"a.c", 1, 5⟩).1 < (tokenSpan "/* é */ int *p;\n" ⟨"a.c", 1, 5⟩).2 ∧
      (tokenSpan "/* é */ int *p;\n" ⟨"a.c", 1, 5⟩).2 ≤ "/* é */ int *p;\n".utf8ByteSize := by
  have hend : located "/* é */ int *p;\n" ⟨"a.c", 1, 5⟩ < "/* é */ int *p;\n".utf8ByteSize := by
    decide +kernel
  -- checked character by character: a bounded `∀` over characters would be decided over all of them
  have hall : ("/* é */ int *p;\n".toList.all fun c => isWordChar c || c.utf8Size == 1) = true := by
    decide +kernel
  have hchar : ∀ pre c post, "/* é */ int *p;\n".toList = pre ++ c :: post →
      byteLength pre ≤ located "/* é */ int *p;\n" ⟨"a.c", 1, 5⟩ →
      located "/* é */ int *p;\n" ⟨"a.c", 1, 5⟩ < byteLength pre + c.utf8Size →
      isWordChar c = true ∨ c.utf8Size = 1 := by
    intro pre c post hsplit _ _
    have hc := List.all_eq_true.1 hall c (by rw [hsplit]; simp)
    simpa using hc
  obtain ⟨hlt, hle, -⟩ := tokenSpan_covers_token "/* é */ int *p;\n" ⟨"a.c", 1, 5⟩ hend hchar
  exact ⟨hend, hlt, hle⟩

/-- Two ways the span fails to cover one character. At the `€` (three bytes, and no letter) of
`int *€p;` the span is its first byte alone, which ends inside it; and a location past the end of
`int x;` gives an empty span, though the text is not empty. -/
theorem tokenSpan_cuts_symbol_or_misses_end :
    tokenSpan "int *€p;\n" ⟨"a.c", 1, 6⟩ = (5, 6) ∧ '€'.utf8Size = 3 ∧
      isCharBoundary "int *€p;\n".toList 6 = false ∧ tokenSpan "int x;" ⟨"a.c", 1, 99⟩ = (6, 6) := by
  decide +kernel

end CheckedPointers.Diagnostic
