-- The lines of a text. A line ends with a line feed, and a carriage return right before
-- it is part of the ending.
import Spacing.Solid

namespace Spacing

namespace Lines

/-- The text without a carriage return at its end. -/
def dropReturn (t : Text) : Text := if t.getLast? == some '\r' then t.dropLast else t

end Lines

/-- The lines of a text, without their endings. A text without a line feed is one line. -/
def lines (t : Text) : List Text := (t.splitOn '\n').map Lines.dropReturn

end Spacing
