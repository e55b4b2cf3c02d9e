-- The limits of a metered search. The steps taken back are counted from one hit to the
-- next, and the open choices at each place.
import Spacing.Scan

namespace Spacing

/-- Why a search was given up. -/
inductive Overrun
  | backtracks
  | depth
deriving Repr, DecidableEq

namespace Overrun

def message : Overrun → String
  | backtracks => "Error executing regex: Max limit for backtracking count exceeded"
  | depth => "Error executing regex: Max stack size exceeded for backtracking"

end Overrun

/-- The most steps that one search may take back. -/
def maxBacktracks : Nat := 1000000

/-- The number of open choices at which a search is given up. -/
def maxDepth : Nat := 1000000

/-- The first overrun of a scan, when `spent` steps were taken back since the last hit. At
one place the depth is looked at before the count. -/
def overrunFrom (spent : Nat) : List Step → Option Overrun
  | [] => none
  | s :: rest =>
    if maxDepth ≤ s.effort.depth then
      some .depth
    else if maxBacktracks < spent + s.effort.backtracks then
      some .backtracks
    else
      overrunFrom (if s.hit?.isSome then 0 else spent + s.effort.backtracks) rest

/-- The first overrun of a pattern's scan. A pattern that does not look around is searched
without a limit. -/
def Pattern.overrun? (p : Pattern) (steps : List Step) : Option Overrun :=
  if p.looksAround then overrunFrom 0 steps else none

end Spacing
