-- Byte strings: paths, arguments and names need not be texts. This module holds how
-- they are shown: whole characters as they are, and each run of bytes that is part of
-- no character as one replacement character.
import Spacing.Solid

namespace Spacing

abbrev Bytes := List UInt8

namespace Bytes

/-- The UTF-8 bytes of a string. -/
def ofString (s : String) : Bytes := s.toUTF8.toList

/-- The bytes are the UTF-8 form of some text. -/
def isText (b : Bytes) : Bool := (ByteArray.mk b.toArray).validateUTF8

end Bytes

/-! ## The characters in a byte string

The bytes are read one at a time. Between characters nothing is open. After the first byte
of a longer character its other bytes are owed, and only the next of them may be limited to
less than the range from 80 to BF. A byte out of its range ends the open character as a
stray, and is then read as a first byte. -/

/-- A part of a byte string: a character, or a run of bytes that no character starts with or
that breaks off too early. -/
inductive Piece
  | char (c : Char)
  | stray (bytes : Bytes)
deriving DecidableEq

/-- A character of which bytes are owed. -/
structure OpenChar where
  bytes : Bytes
  code : Nat
  owed : Nat
  low : UInt8 := 0x80
  high : UInt8 := 0xBF

namespace OpenChar

/-- The open character after its first byte, if that byte starts a longer character. -/
def start? (b : UInt8) : Option OpenChar :=
  let opened (mark : UInt8) (owed : Nat) (low high : UInt8) : Option OpenChar :=
    some { bytes := [b], code := (b - mark).toNat, owed, low, high }
  if 0xC2 ≤ b && b ≤ 0xDF then opened 0xC0 1 0x80 0xBF
  else if b == 0xE0 then opened 0xE0 2 0xA0 0xBF
  else if b == 0xED then opened 0xE0 2 0x80 0x9F
  else if 0xE1 ≤ b && b ≤ 0xEF then opened 0xE0 2 0x80 0xBF
  else if b == 0xF0 then opened 0xF0 3 0x90 0xBF
  else if 0xF1 ≤ b && b ≤ 0xF3 then opened 0xF0 3 0x80 0xBF
  else if b == 0xF4 then opened 0xF0 3 0x80 0x8F
  else none

def accepts (o : OpenChar) (b : UInt8) : Bool := o.low ≤ b && b ≤ o.high

def push (o : OpenChar) (b : UInt8) : OpenChar :=
  { bytes := o.bytes ++ [b], code := o.code * 64 + (b - 0x80).toNat, owed := o.owed - 1 }

end OpenChar

/-- What a byte between characters opens or adds. -/
def firstByte (b : UInt8) : Option OpenChar × List Piece :=
  if b < 0x80 then
    (none, [.char (Char.ofNat b.toNat)])
  else
    match OpenChar.start? b with
    | some o => (some o, [])
    | none => (none, [.stray [b]])

/-- What one byte opens or adds. -/
def nextByte (o? : Option OpenChar) (b : UInt8) : Option OpenChar × List Piece :=
  match o? with
  | none => firstByte b
  | some o =>
    if o.accepts b then
      let pushed := o.push b
      if pushed.owed == 0 then (none, [.char (Char.ofNat pushed.code)]) else (some pushed, [])
    else
      let (next?, added) := firstByte b
      (next?, .stray o.bytes :: added)

/-- The pieces of the bytes, after an open character. -/
def piecesFrom : Option OpenChar → Bytes → List Piece
  | none, [] => []
  | some o, [] => [.stray o.bytes]
  | o?, b :: rest =>
    let (next?, added) := nextByte o? b
    added ++ piecesFrom next? rest

namespace Bytes

def pieces (b : Bytes) : List Piece := piecesFrom none b

end Bytes

namespace Piece

/-- A stray is shown as the replacement character U+FFFD. -/
def shown : Piece → Char
  | char c => c
  | stray _ => '\ufffd'

def showAll (ps : List Piece) : String := String.ofList (ps.map shown)

end Piece

namespace Bytes

/-- The byte string as it is shown in messages. -/
def display (b : Bytes) : String := Piece.showAll b.pieces

end Bytes

end Spacing
