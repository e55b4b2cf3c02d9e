-- The smallest parts of an expression: a character that stands for itself, or an escape,
-- which is a backslash with what follows it.
import Spacing.Solid

namespace Spacing.Expression

/-! ## Modes -/

/-- How an expression is read from a place on. -/
structure Mode where
  /-- White space and comments are left out. -/
  spaced : Bool := false
  /-- The expression is about characters. If not, it is about bytes, and it may not match a
  byte that is no character by itself. -/
  unicode : Bool := true
deriving Repr, DecidableEq

/-- The text without the white space and the comments at its head. A comment starts with a
number sign and ends with its line. -/
def afterSpace (inComment : Bool) : Text → Text
  | [] => []
  | c :: t =>
    if inComment then
      afterSpace (c != '\n') t
    else if c == '#' then
      afterSpace true t
    else if isWhiteSpace c then
      afterSpace false t
    else
      c :: t

/-- The text from its next character on that counts. -/
def Mode.skip (m : Mode) (t : Text) : Text := if m.spaced then afterSpace false t else t

/-! ## Atoms -/

/-- What an atom matches. -/
inductive Atom
  /-- One character. -/
  | literal (c : Char)
  /-- Any character of a kind. -/
  | kind
  /-- The start or the end of the text. -/
  | place
  /-- The edge of a word, or any place that is none. -/
  | wordEdge
deriving Repr, DecidableEq

/-- The atom can be an item of a set. Among bytes only an ASCII character can. -/
def Atom.fitsSet (m : Mode) : Atom → Bool
  | .literal c => m.unicode || c.toNat < 0x80
  | .kind => true
  | .place | .wordEdge => false

/-! ## Escapes -/

def hexDigit? (c : Char) : Option Nat :=
  if c.isDigit then
    some (c.toNat - '0'.toNat)
  else if 'a' ≤ c && c ≤ 'f' then
    some (c.toNat - 'a'.toNat + 10)
  else if 'A' ≤ c && c ≤ 'F' then
    some (c.toNat - 'A'.toNat + 10)
  else
    none

/-- Reads a hexadecimal number with a given count of digits, from a value on. -/
def hexNumber? (m : Mode) : Nat → Nat → Text → Option (Nat × Text)
  | 0, value, t => some (value, t)
  | count + 1, value, t =>
    match m.skip t with
    | [] => none
    | c :: rest => do hexNumber? m count (16 * value + (← hexDigit? c)) rest

/-- Reads the code point of a character. -/
def codePoint? (m : Mode) (count : Nat) (t : Text) : Option (Atom × Text) := do
  let (n, rest) ← hexNumber? m count 0 t
  if n.isValidChar then some (.literal (Char.ofNat n), rest) else none

/-- Reads the value of a byte. A byte beyond ASCII is no character by itself. -/
def byte? (m : Mode) (t : Text) : Option (Atom × Text) := do
  let (n, rest) ← hexNumber? m 2 0 t
  if m.unicode || n < 0x80 then some (.literal (Char.ofNat n), rest) else none

/-- The general categories that have a name of one letter: other, letter, mark, number,
punctuation, symbol and separator. -/
def categories : List Char := ['c', 'l', 'm', 'n', 'p', 's', 'z']

/-- Reads the letter of a general category. -/
def category? (m : Mode) (t : Text) : Option (Atom × Text) :=
  match m.skip t with
  | [] => none
  | c :: rest => if m.unicode && categories.contains c.toLower then some (.kind, rest) else none

/-- The control characters that have a letter of their own. -/
def control? : Char → Option Char
  | 'a' => some '\x07'
  | 'f' => some '\x0c'
  | 't' => some '\t'
  | 'n' => some '\n'
  | 'r' => some '\r'
  | 'v' => some '\x0b'
  | _ => none

/-- Reads an escape after its backslash. A negated kind holds characters beyond ASCII, so it
is not about bytes. A mark of ASCII stands for itself, and no other character does. -/
def escape? (m : Mode) : Text → Option (Atom × Text)
  | [] => none
  | c :: rest =>
    match c with
    | 'x' => byte? m rest
    | 'u' => codePoint? m 4 rest
    | 'U' => codePoint? m 8 rest
    | 'p' | 'P' => category? m rest
    | 'd' | 's' | 'w' => some (.kind, rest)
    | 'D' | 'S' | 'W' => if m.unicode then some (.kind, rest) else none
    | 'A' | 'z' => some (.place, rest)
    | 'b' | 'B' | '<' | '>' => some (.wordEdge, rest)
    | _ =>
      match control? c with
      | some control => some (.literal control, rest)
      | none => if c.toNat < 0x80 && !c.isAlphanum then some (.literal c, rest) else none

end Spacing.Expression
