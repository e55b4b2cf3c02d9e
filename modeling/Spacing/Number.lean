-- The texts that are numbers: decimal numbers, infinity, and the value that is no number.
import Spacing.Solid

namespace Spacing.Number

/-- The text without a sign at its head. -/
def unsigned : Text → Text
  | '+' :: t | '-' :: t => t
  | t => t

/-- The values that have a name. Small letters and capitals are the same in it. -/
def names : List Text := ["inf".toList, "infinity".toList, "nan".toList]

/-- Nothing, or an exponent: its letter, perhaps a sign, and digits. -/
def isExponent : Text → Bool
  | [] => true
  | c :: t =>
    let digits := unsigned t
    (c == 'e' || c == 'E') && !digits.isEmpty && digits.all Char.isDigit

/-- Digits, perhaps with a point before, within or after them, and perhaps an exponent. -/
def isDecimal (t : Text) : Bool :=
  let whole := t.takeWhile Char.isDigit
  match t.dropWhile Char.isDigit with
  | '.' :: rest =>
    let decimals := rest.takeWhile Char.isDigit
    !(whole.isEmpty && decimals.isEmpty) && isExponent (rest.dropWhile Char.isDigit)
  | rest => !whole.isEmpty && isExponent rest

/-- The text is a number. -/
def isNumber (t : Text) : Bool :=
  let t := unsigned t
  names.contains (t.map Char.toLower) || isDecimal t

end Spacing.Number
