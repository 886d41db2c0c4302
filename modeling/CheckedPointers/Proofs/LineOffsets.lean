import Mathlib
import CheckedPointers.Text.LineIndex

/-!
# Offsets of lines and columns

The lines of a text are its bytes cut at every newline byte (`LineIndex.lines`): line `k + 1`
starts after the lines before it, each with its newline (`LineIndex.lineStart`), and ends at its
own newline, or at the end of the text for the last line (`LineIndex.lineEnd`). A text has one
line more than it has newline bytes.

The line index finds a line's start and end exactly (`LineIndex.offset_eq`): `offset` names
nothing for line 0 or a line past the last, and otherwise holds the line's start plus the column
less one to the line's end. Offsets are 32-bit words: the index keeps starts and length modulo
`2^32`, which changes nothing in a text shorter than `2^32` bytes (`LineIndex.offset_eq_of_lt`),
and the sum is taken modulo `2^32` before it is held. So as long as neither wraps the offset
stays on its line (`LineIndex.offset_within_line`); a column that makes the sum wrap lands on an
earlier line (`LineIndex.long_column_wraps_to_earlier_line`).
-/

namespace CheckedPointers.Text

theorem byteArray_toList (bs : ByteArray) : bs.toList = bs.data.toList := by
  obtain ⟨data⟩ := bs
  have hsize : (ByteArray.mk data).size = data.size := rfl
  -- the loop has reversed the bytes before `i` into `r`
  have hloop : ∀ n i r, data.size - i = n →
      ByteArray.toList.loop ⟨data⟩ i r = r.reverse ++ data.toList.drop i := by
    intro n
    induction n with
    | zero =>
      intro i r hi
      rw [ByteArray.toList.loop, if_neg (by rw [hsize]; omega),
        List.drop_eq_nil_of_le (by rw [Array.length_toList]; omega), List.append_nil]
    | succ n ih =>
      intro i r hi
      have hlt : i < data.size := by omega
      have hget : (ByteArray.mk data).get! i = data[i] := by simp [ByteArray.get!, hlt]
      rw [ByteArray.toList.loop, if_pos (by rw [hsize]; omega), ih (i + 1) _ (by omega),
        List.drop_eq_getElem_cons (i := i) (l := data.toList) (by rw [Array.length_toList]; exact hlt), hget]
      simp
  rw [ByteArray.toList, hloop _ 0 [] rfl]
  simp

theorem length_toUTF8_toList (s : String) : s.toUTF8.toList.length = s.utf8ByteSize := by
  rw [byteArray_toList, Array.length_toList, String.toUTF8_eq_toByteArray]
  exact String.size_toByteArray

namespace LineIndex

/-- The lines of a text: its bytes cut at every newline byte, the newlines left out. -/
def lines (s : String) : List (List UInt8) := s.toUTF8.toList.splitOn 10

/-- Where line `k + 1` starts: after the lines before it, each with its newline. -/
def lineStart (ls : List (List UInt8)) (k : Nat) : Nat := ((ls.take k).map (·.length + 1)).sum

/-- Where line `k + 1` ends: at its newline, or at the end of the text for the last line. -/
def lineEnd (ls : List (List UInt8)) (k : Nat) : Nat := lineStart ls k + (ls.getD k []).length

variable {ls : List (List UInt8)} {k : Nat}

@[simp] theorem lineStart_zero (ls : List (List UInt8)) : lineStart ls 0 = 0 := by simp [lineStart]

@[simp] theorem lineStart_cons_succ (l : List UInt8) (ls : List (List UInt8)) (k : Nat) :
    lineStart (l :: ls) (k + 1) = l.length + 1 + lineStart ls k := by
  simp [lineStart]

theorem lineStart_le_lineEnd : lineStart ls k ≤ lineEnd ls k := Nat.le_add_right _ _

theorem lineStart_succ (hk : k < ls.length) : lineStart ls (k + 1) = lineEnd ls k + 1 := by
  have hget : ls.getD k [] = ls[k] := by
    rw [List.getD_eq_getElem?_getD, List.getElem?_eq_getElem hk, Option.getD_some]
  rw [lineEnd, hget, lineStart, lineStart, List.take_add_one, List.map_append, List.sum_append]
  simp [List.getElem?_eq_getElem hk]
  omega

theorem lineEnd_modifyHead (b : UInt8) (hne : ls ≠ []) (k : Nat) :
    lineEnd (ls.modifyHead (b :: ·)) k = lineEnd ls k + 1 := by
  obtain ⟨l, ls, rfl⟩ := List.exists_cons_of_ne_nil hne
  cases k with
  | zero => simp [lineEnd]
  | succ k => simp [lineEnd]; omega

theorem lineStart_modifyHead_succ (b : UInt8) (hne : ls ≠ []) (k : Nat) :
    lineStart (ls.modifyHead (b :: ·)) (k + 1) = lineStart ls (k + 1) + 1 := by
  obtain ⟨l, ls, rfl⟩ := List.exists_cons_of_ne_nil hne
  simp
  omega

/-! ## Cutting bytes at newlines -/

theorem splitOn_cons (b : UInt8) (bs : List UInt8) :
    (b :: bs).splitOn 10 = if b = 10 then [] :: bs.splitOn 10 else (bs.splitOn 10).modifyHead (b :: ·) := by
  rw [List.splitOn, List.splitOnP_cons_eq_if_modifyHead]
  simp only [beq_iff_eq]
  rfl

theorem splitOn_ne_nil (bs : List UInt8) : bs.splitOn 10 ≠ [] := List.splitOnP_ne_nil _ _

theorem length_splitOn (bs : List UInt8) : (bs.splitOn 10).length = bs.count 10 + 1 := by
  induction bs with
  | nil => rfl
  | cons b bs ih =>
    rw [splitOn_cons, List.count_cons]
    split
    · next hb => simp [hb, ih]
    · next hb => simp [hb, ih]

theorem lineEnd_last (bs : List UInt8) : lineEnd (bs.splitOn 10) (bs.count 10) = bs.length := by
  induction bs with
  | nil => rfl
  | cons b bs ih =>
    rw [splitOn_cons, List.count_cons]
    split
    · next hb =>
      subst hb
      simp only [beq_self_eq_true, if_true, List.length_cons]
      simp [lineEnd] at ih ⊢
      omega
    · next hb =>
      simp only [beq_iff_eq, hb, if_false, Nat.add_zero, List.length_cons]
      rw [lineEnd_modifyHead b (splitOn_ne_nil bs), ih]

theorem newlineEnds_getElem? (bs : List UInt8) (i k : Nat) :
    (newlineEnds bs i)[k]? =
      if k + 1 < (bs.splitOn 10).length then some (i + lineStart (bs.splitOn 10) (k + 1)) else none := by
  induction bs generalizing i k with
  | nil => simp [newlineEnds]
  | cons b bs ih =>
    rw [newlineEnds, splitOn_cons]
    by_cases hb : b = 10
    · -- a newline: the next line starts just after it
      subst hb
      simp only [beq_self_eq_true, if_true]
      cases k with
      | zero => simp [List.length_pos_iff.2 (splitOn_ne_nil bs)]
      | succ k =>
        rw [List.getElem?_cons_succ, ih, List.length_cons, lineStart_cons_succ, List.length_nil]
        by_cases h : k + 1 < (bs.splitOn 10).length
        · rw [if_pos h, if_pos (by omega)]
          congr 1
          omega
        · rw [if_neg h, if_neg (by omega)]
    · -- any other byte lengthens the first line
      rw [if_neg (by simpa using hb), if_neg hb, ih, List.length_modifyHead]
      by_cases h : k + 1 < (bs.splitOn 10).length
      · rw [if_pos h, if_pos h, lineStart_modifyHead_succ b (splitOn_ne_nil bs)]
        congr 1
        omega
      · rw [if_neg h, if_neg h]

theorem starts_getElem? (bs : List UInt8) (k : Nat) :
    (0 :: newlineEnds bs 0)[k]? =
      if k < (bs.splitOn 10).length then some (lineStart (bs.splitOn 10) k) else none := by
  cases k with
  | zero => simp [List.length_pos_iff.2 (splitOn_ne_nil bs)]
  | succ k => rw [List.getElem?_cons_succ, newlineEnds_getElem?, Nat.zero_add]

theorem lineEnd_mono {j : Nat} (h : k ≤ j) (hj : j < ls.length) : lineEnd ls k ≤ lineEnd ls j := by
  induction j, h using Nat.le_induction with
  | base => exact Nat.le_refl _
  | succ j hkj ih =>
    have hnext : lineStart ls (j + 1) = lineEnd ls j + 1 := lineStart_succ (by omega)
    have hle : lineStart ls (j + 1) ≤ lineEnd ls (j + 1) := lineStart_le_lineEnd
    have hprev := ih (by omega)
    omega

theorem lineEnd_le_length (bs : List UInt8) (hk : k < (bs.splitOn 10).length) :
    lineEnd (bs.splitOn 10) k ≤ bs.length := by
  rw [← lineEnd_last bs]
  rw [length_splitOn] at hk
  exact lineEnd_mono (by omega) (by rw [length_splitOn]; omega)

/-! ## The offset of a line and column -/

/-- The index of a text finds a line's start and end, as 32-bit words: line 0 and lines past the
last name nothing, and a column is held to its line's end after the sum of the line's start and
the column less one is taken modulo `2^32`. -/
theorem offset_eq (s : String) (line col : Nat) :
    (ofString s).offset line col =
      if 0 < line ∧ line ≤ (lines s).length then
        some (min ((lineStart (lines s) (line - 1) % wordBound + (col - 1)) % wordBound)
          (if line < (lines s).length then (lineStart (lines s) line % wordBound + wordBound - 1) % wordBound
            else s.utf8ByteSize % wordBound))
      else none := by
  unfold offset ofString lines
  generalize hbs : s.toUTF8.toList = bs
  have hlen : s.utf8ByteSize = bs.length := by rw [← hbs, length_toUTF8_toList]
  rw [hlen]
  cases line with
  | zero => simp
  | succ k =>
    simp only [Nat.add_one_ne_zero, if_false, Nat.add_sub_cancel, List.getElem?_map, starts_getElem?,
      Nat.zero_lt_succ, true_and, Nat.add_one_le_iff]
    by_cases hk : k < (bs.splitOn 10).length
    · by_cases hnext : k + 1 < (bs.splitOn 10).length
      · simp only [hk, hnext, if_true, Option.map_some]
      · simp only [hk, hnext, if_true, if_false, Option.map_some, Option.map_none]
    · simp [hk]

/-- In a text shorter than `2^32` bytes the casts change nothing: the offset is the line's start
plus the column less one, taken modulo `2^32` and held to the line's end. -/
theorem offset_eq_of_lt (s : String) (hsize : s.utf8ByteSize < wordBound) (line col : Nat) :
    (ofString s).offset line col =
      if 0 < line ∧ line ≤ (lines s).length then
        some (min ((lineStart (lines s) (line - 1) + (col - 1)) % wordBound) (lineEnd (lines s) (line - 1)))
      else none := by
  rw [offset_eq]
  split
  · next hline =>
    have hlen : s.utf8ByteSize = s.toUTF8.toList.length := (length_toUTF8_toList s).symm
    -- the line lies within the text, and so below `2^32`
    have hend : lineEnd (lines s) (line - 1) ≤ s.utf8ByteSize := by
      rw [hlen]
      exact lineEnd_le_length _ (by unfold lines at hline; omega)
    have hstart : lineStart (lines s) (line - 1) % wordBound = lineStart (lines s) (line - 1) :=
      Nat.mod_eq_of_lt (by
        have : lineStart (lines s) (line - 1) ≤ lineEnd (lines s) (line - 1) := lineStart_le_lineEnd
        omega)
    have hstop : (if line < (lines s).length then
        (lineStart (lines s) line % wordBound + wordBound - 1) % wordBound
          else s.utf8ByteSize % wordBound) = lineEnd (lines s) (line - 1) := by
      split
      · next hnext =>
        -- the next line starts just after this one's newline
        have hsucc : lineStart (lines s) (line - 1 + 1) = lineEnd (lines s) (line - 1) + 1 :=
          lineStart_succ (by omega)
        rw [Nat.sub_add_cancel hline.1] at hsucc
        have hnextEnd : lineEnd (lines s) line ≤ s.utf8ByteSize := by
          rw [hlen]
          exact lineEnd_le_length _ (by unfold lines at hnext; omega)
        have hle : lineStart (lines s) line ≤ lineEnd (lines s) line := lineStart_le_lineEnd
        have hwrap : lineEnd (lines s) (line - 1) + 1 < wordBound := by omega
        rw [hsucc, Nat.mod_eq_of_lt hwrap,
          show lineEnd (lines s) (line - 1) + 1 + wordBound - 1 = lineEnd (lines s) (line - 1) + wordBound by omega,
          Nat.add_mod_right, Nat.mod_eq_of_lt (by omega)]
      · next hlast =>
        -- the last line ends at the end of the text
        have hk : line - 1 = s.toUTF8.toList.count 10 := by
          unfold lines at hline hlast
          rw [length_splitOn] at hline hlast
          omega
        rw [Nat.mod_eq_of_lt hsize, hk, lines, lineEnd_last, hlen]
    rw [hstart, hstop]
  · rfl

/-- The offset names nothing exactly for line 0 or a line past the last; below `2^32`, it is the
line's start plus the column held to the line. -/
theorem offset_within_line (s : String) (line col : Nat) :
    ((ofString s).offset line col = none ↔ line = 0 ∨ s.toUTF8.toList.count 10 + 1 < line) ∧
    (0 < line → line ≤ s.toUTF8.toList.count 10 + 1 → s.utf8ByteSize < wordBound →
      lineStart (lines s) (line - 1) + (col - 1) < wordBound →
      ∃ o, (ofString s).offset line col = some o ∧
        o = min (lineStart (lines s) (line - 1) + (col - 1)) (lineEnd (lines s) (line - 1)) ∧
        lineStart (lines s) (line - 1) ≤ o ∧ o ≤ lineEnd (lines s) (line - 1)) := by
  have hcount : (lines s).length = s.toUTF8.toList.count 10 + 1 := length_splitOn _
  refine ⟨?_, fun hpos hle hsize hwrap => ?_⟩
  · rw [offset_eq, hcount]
    split
    · next h => simp only [reduceCtorEq, false_iff]; omega
    · next h => simp only [true_iff]; omega
  · rw [offset_eq_of_lt s hsize, if_pos ⟨hpos, hcount ▸ hle⟩, Nat.mod_eq_of_lt hwrap]
    exact ⟨_, rfl, rfl, Nat.le_min.2 ⟨Nat.le_add_right _ _, lineStart_le_lineEnd⟩, Nat.min_le_right _ _⟩

/-- A column of 40 on the first line of `int *p;` stops at the line's newline, at offset 7. -/
theorem offset_within_line_of_long_column :
    (ofString "int *p;\nint *q;\n").offset 1 40 = some 7 ∧
      lineStart (lines "int *p;\nint *q;\n") 0 = 0 ∧ lineEnd (lines "int *p;\nint *q;\n") 0 = 7 := by
  obtain ⟨o, ho, hmin, -, -⟩ := (offset_within_line "int *p;\nint *q;\n" 1 40).2 (by decide)
    (by decide +kernel) (by decide +kernel) (by decide)
  have hend : lineEnd (lines "int *p;\nint *q;\n") 0 = 7 := by decide +kernel
  rw [hend, lineStart_zero] at hmin
  exact ⟨ho.trans (by rw [hmin]; rfl), lineStart_zero _, hend⟩

/-- On the second line of `a\nb`, which starts at byte 2, a column of `2^32 - 1` wraps around to
offset 0, on the first line. -/
theorem long_column_wraps_to_earlier_line :
    (ofString "a\nb").offset 2 4294967295 = some 0 ∧ lineStart (lines "a\nb") 1 = 2 := by
  decide +kernel

end LineIndex

end CheckedPointers.Text
