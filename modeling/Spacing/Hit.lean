-- What a search finds: the matched stretch of the text with the part of it that is
-- kept, and what the try cost.
import Spacing.Solid

namespace Spacing

/-- A matched stretch of a text, in three parts. `kept` is the captured part, or all of the
stretch where nothing was captured. -/
structure Hit where
  lead : Text := []
  kept : Text
  trail : Text := []
deriving Repr, DecidableEq

namespace Hit

/-- The whole stretch that was matched. -/
def whole (h : Hit) : Text := h.lead ++ h.kept ++ h.trail

/-- A stretch that is kept as a whole. -/
def all (t : Text) : Hit := { kept := t }

@[simp]
theorem whole_all (t : Text) : (all t).whole = t := by simp [whole, all]

/-- A stretch of one character, one or more blanks, and an end, of which the last blank is
kept. -/
def lastBlank (c : Char) (blanks : Nat) (trail : Text) : Hit :=
  { lead := c :: List.replicate (blanks - 1) ' ', kept := [' '], trail }

theorem whole_lastBlank (c : Char) (blanks : Nat) (trail : Text) :
    (lastBlank c (blanks + 1) trail).whole = c :: (List.replicate (blanks + 1) ' ' ++ trail) := by
  simp [whole, lastBlank, List.replicate_succ']

end Hit

/-- What one try of a pattern at one place costs: the steps taken back, and how many open
choices were held at once. -/
structure Effort where
  backtracks : Nat := 0
  depth : Nat := 0
deriving Repr, DecidableEq

/-- One try of a pattern at one place of a text. -/
structure Attempt where
  effort : Effort := {}
  hit? : Option Hit
deriving Repr, DecidableEq

end Spacing
