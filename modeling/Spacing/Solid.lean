-- Texts, and the two kinds of characters that the operator rules tell apart:
-- white space, and the solid characters, which are all others.

namespace Spacing

/-- A text is the list of its characters. -/
abbrev Text := List Char

/-! ## White space

The set is that of the line terminators and blanks of the Unicode standard with the byte
order mark. The next-line control U+0085 is not in it, so it is solid. -/

/-- White space to the operator rules. -/
def isSpace (c : Char) : Bool :=
  let n := c.toNat
  (0x9 ≤ n && n ≤ 0xD) || n == 0x20 || n == 0xA0 || n == 0x1680 ||
    (0x2000 ≤ n && n ≤ 0x200A) || n == 0x2028 || n == 0x2029 || n == 0x202F ||
    n == 0x205F || n == 0x3000 || n == 0xFEFF

/-- White space to the log settings, as the standard has it: with the next-line control, and
without the byte order mark. -/
def isWhiteSpace (c : Char) : Bool := (isSpace c || c == '\x85') && c != '\ufeff'

/-- A solid character is one that is not white space. -/
def isSolid (c : Char) : Bool := !isSpace c

/-- A blank is the plain space U+0020, the only white space that the comma rules and the
repair of equal signs look at. -/
def isBlank (c : Char) : Bool := c == ' '

/-! ## The ends of a text -/

/-- The text starts with a solid character. -/
def solidAhead (t : Text) : Bool := t.head?.any isSolid

/-- The blanks at the head of the text. -/
def leadingBlanks (t : Text) : Nat := (t.takeWhile isBlank).length

theorem solidAhead_cons (c : Char) (t : Text) : solidAhead (c :: t) = isSolid c := by
  simp [solidAhead]

theorem leadingBlanks_cons (c : Char) (t : Text) :
    leadingBlanks (c :: t) = if isBlank c = true then leadingBlanks t + 1 else 0 := by
  unfold leadingBlanks
  by_cases h : isBlank c = true <;> simp [h]

theorem take_leadingBlanks (t : Text) :
    t.take (leadingBlanks t) = List.replicate (leadingBlanks t) ' ' := by
  induction t with
  | nil => rfl
  | cons c t ih =>
    by_cases h : isBlank c = true
    · have hc : c = ' ' := by simpa [isBlank] using h
      rw [leadingBlanks_cons, if_pos h, List.take_succ_cons, ih, hc, List.replicate_succ]
    · rw [leadingBlanks_cons, if_neg h, List.take_zero, List.replicate_zero]

end Spacing
