-- Texts on a terminal. A control sequence starts with the escape character and is not
-- seen. A refusal is shown without such sequences, and the log spells the characters
-- out that could start or steer one.
import Spacing.Bytes

namespace Spacing

/-- A control sequence that has started and not ended. -/
inductive OpenSequence
  /-- Right after the escape character. -/
  | introduced
  /-- After the escape character and characters that announce a final one. -/
  | announced
  /-- A control sequence proper, which a letter ends. -/
  | control
  /-- A command of the operating system, which the bell ends. -/
  | command
  /-- The head of a device string, by what may still follow in it. -/
  | deviceStart
  | deviceParameters
  | deviceAnnounced
  /-- The body of a string, which only the string terminator ends. -/
  | body
deriving Repr, DecidableEq

namespace Terminal

/-! ## Kinds of characters -/

def between (low high c : Char) : Bool := low ≤ c && c ≤ high

def escape : Char := '\x1b'

def bell : Char := '\x07'

/-- The characters that break any sequence off. -/
def isCancel (c : Char) : Bool := c == '\x18' || c == '\x1a'

/-- A control character of ASCII. -/
def isControl (c : Char) : Bool := c < ' ' || c == '\x7f'

/-- The control characters that are seen as white space. The vertical tab is not one. -/
def isLayout (c : Char) : Bool := c == '\t' || c == '\n' || c == '\x0c' || c == '\r'

/-- The byte of the string terminator is in the character. -/
def holdsTerminator (c : Char) : Bool := (Bytes.ofString (String.singleton c)).contains 0x9C

/-! ## Leaving control sequences out -/

/-- The sequence after one more character that is a printable one of ASCII. -/
def advance (s : OpenSequence) (c : Char) : Option OpenSequence :=
  match s with
  | .introduced =>
    if between ' ' '/' c then some .announced
    else if c == '[' then some .control
    else if c == ']' then some .command
    else if c == 'P' then some .deviceStart
    else if c == 'X' || c == '^' || c == '_' then some .body
    else none
  | .announced => if between ' ' '/' c then some .announced else none
  | .control => if between ' ' '?' c then some .control else none
  | .command => some .command
  | .deviceStart =>
    if between ' ' '/' c then some .deviceAnnounced
    else if between '0' '?' c then some .deviceParameters
    else some .body
  | .deviceParameters =>
    if between ' ' '/' c then some .deviceAnnounced
    else if between '0' ';' c then some .deviceParameters
    else some .body
  | .deviceAnnounced => if between ' ' '/' c then some .deviceAnnounced else some .body
  | .body => some .body

/-- White space is seen inside these sequences, and ends them. -/
def showsLayout : OpenSequence → Bool
  | .introduced | .announced | .control => true
  | _ => false

/-- What one character inside a sequence does: the sequence after it, and whether the
character is seen. -/
def within (s : OpenSequence) (c : Char) : Option OpenSequence × Bool :=
  if isLayout c && showsLayout s then
    (none, true)
  else if isControl c then
    (if s == .command && c == bell then none else some s, false)
  else if c < '\x80' then
    (advance s c, false)
  else
    (if s == .body && holdsTerminator c then none else some s, false)

/-- What one character does. -/
def next (s? : Option OpenSequence) (c : Char) : Option OpenSequence × Bool :=
  if c == escape then
    (some .introduced, false)
  else if isCancel c then
    (none, false)
  else
    match s? with
    | none => (none, isLayout c || !isControl c)
    | some s => within s c

/-- What is seen of a text, after a sequence. -/
def seenFrom : Option OpenSequence → Text → Text
  | _, [] => []
  | s?, c :: rest =>
    let (after?, shown) := next s? c
    if shown then c :: seenFrom after? rest else seenFrom after? rest

/-- The text without control sequences and control characters. -/
def seen (t : Text) : Text := seenFrom none t

/-! ## Spelling characters out -/

def hexadecimal (n : Nat) : Text := Nat.toDigits 16 n

/-- The characters that start or steer a control sequence are spelled out, and all others
stay as they are. -/
def spellChar (c : Char) : Text :=
  if c == escape then ['\\', 'x', '1', 'b']
  else if c == bell then ['\\', 'x', '0', '7']
  else if c == '\x08' then ['\\', 'x', '0', '8']
  else if c == '\x0c' then ['\\', 'x', '0', 'c']
  else if c == '\x7f' then ['\\', 'x', '7', 'f']
  else if between '\x80' '\u009f' c then ['\\', 'u', '\x7b'] ++ hexadecimal c.toNat ++ ['\x7d']
  else [c]

def spell (t : Text) : Text := t.flatMap spellChar

end Terminal

end Spacing
