-- The patterns that the rules look for, each as what it finds at one place of a text.
-- A place is given by the character behind it, if any, and the text ahead.
import Spacing.Operator
import Spacing.Hit

namespace Spacing

inductive Pattern
  /-- An operator between two solid characters. -/
  | operator
  /-- A comma and the blanks after it, short of a blank that stands right before a newline. -/
  | commaBlanks
  /-- A comma, one or more blanks, and a newline. -/
  | commaLineEnd
  /-- Two equal signs with one or more blanks between them. -/
  | tornEquals
  /-- One of some literal texts, tried in order. -/
  | literals (alternatives : List Text)
deriving Repr, DecidableEq

namespace Pattern

/-- A pattern that looks around itself needs a searcher that takes steps back. Only such a
search is metered. -/
def looksAround : Pattern → Bool
  | operator | commaBlanks => true
  | commaLineEnd | tornEquals | literals _ => false

/-! ## One place -/

/-- An operator needs a solid character behind. With none, the place is left at once. -/
def tryOperator (behind : Option Char) (ahead : Text) : Attempt :=
  if behind.any isSolid then
    { effort := { backtracks := Operator.misses ahead }
      hit? := (Operator.at? ahead).map fun op => Hit.all op.text }
  else
    { effort := { backtracks := 1 }, hit? := none }

/-- The blanks after a comma are taken all at once. With a newline after them the last one
is given back, and the comma is no match if it was the only one. -/
def tryCommaBlanks : Text → Attempt
  | ',' :: rest =>
    let blanks := leadingBlanks rest
    let atLineEnd := (rest.drop blanks).head? == some '\n'
    match blanks, atLineEnd with
    | 0, _ => { effort := { backtracks := 1 }, hit? := none }
    | n + 1, false =>
      { effort := { backtracks := 2, depth := n + 1 }, hit? := some (Hit.lastBlank ',' (n + 1) []) }
    | 1, true => { effort := { backtracks := 2, depth := 1 }, hit? := none }
    | n + 2, true =>
      { effort := { backtracks := 3, depth := n + 2 }, hit? := some (Hit.lastBlank ',' (n + 1) []) }
  | _ => { effort := { backtracks := 1 }, hit? := none }

/-- One character, one or more blanks, and another character. -/
def tryAcrossBlanks (first last : Char) : Text → Option Hit
  | [] => none
  | c :: rest =>
    let blanks := leadingBlanks rest
    if c == first && blanks != 0 && (rest.drop blanks).head? == some last then
      some (Hit.lastBlank first blanks [last])
    else
      none

def tryLiterals (alternatives : List Text) (ahead : Text) : Option Hit :=
  (alternatives.find? (·.isPrefixOf ahead)).map Hit.all

/-- What the pattern finds at one place, and at what cost. -/
def attempt (p : Pattern) (behind : Option Char) (ahead : Text) : Attempt :=
  match p with
  | operator => tryOperator behind ahead
  | commaBlanks => tryCommaBlanks ahead
  | commaLineEnd => { hit? := tryAcrossBlanks ',' '\n' ahead }
  | tornEquals => { hit? := tryAcrossBlanks '=' '=' ahead }
  | literals alternatives => { hit? := tryLiterals alternatives ahead }

end Pattern

end Spacing
