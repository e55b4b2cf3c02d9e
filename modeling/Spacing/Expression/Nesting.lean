-- How deep the parts of an expression are nested. A part has a height, which is the
-- number of levels in it, and the height of the whole is limited.
import Spacing.Solid

namespace Spacing.Expression

/-- The greatest height of an expression. -/
def maxHeight : Nat := 250

/-- Parts that stand side by side: how many there are, and the greatest height of one. -/
structure Row where
  count : Nat := 0
  greatest : Nat := 0
deriving Repr, DecidableEq

namespace Row

def push (r : Row) (height : Nat) : Row :=
  { count := r.count + 1, greatest := max r.greatest height }

/-- Several parts are a level of their own. -/
def height (r : Row) : Nat := if r.count < 2 then r.greatest else r.greatest + 1

end Row

end Spacing.Expression
