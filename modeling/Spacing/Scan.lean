-- The scan of a text by a pattern: from left to right, hits that do not overlap, and
-- every try with its cost. The scan keeps the whole text, so what a rule writes and
-- what a search costs are both read off it.
import Spacing.Pattern

namespace Spacing

/-- One step of a scan, with the cost of the try made there. -/
inductive Step
  /-- No hit starts here, and the character is passed over. -/
  | pass (effort : Effort) (c : Char)
  | hit (effort : Effort) (h : Hit)
  /-- The end of the text, where nothing was found. -/
  | stop (effort : Effort)
deriving Repr, DecidableEq

namespace Step

def effort : Step → Effort
  | pass e _ | hit e _ | stop e => e

/-- The stretch of the text that the step stands for. -/
def text : Step → Text
  | pass _ c => [c]
  | hit _ h => h.whole
  | stop _ => []

def hit? : Step → Option Hit
  | hit _ h => some h
  | pass _ _ | stop _ => none

end Step

/-! ## One place

Right after a hit no empty hit is taken: it would stand at the end of the one before. -/

/-- The hit that the scan takes from a try, if any. -/
def Attempt.taken (a : Attempt) (afterHit : Bool) : Option Hit :=
  a.hit?.filter fun h => !(afterHit && h.whole.isEmpty)

namespace Pattern

/-! ## The whole text

`afterHit` says that the last hit ends at this place, `behind` is the character before it,
and `skip` counts the characters of the last hit that are still ahead. After an empty hit
the next character is passed over without a new try. -/

/-- The steps of the scan, the reading for proofs. -/
def scan (p : Pattern) (afterHit : Bool) (behind : Option Char) : Nat → Text → List Step
  | _ + 1, [] => []
  | skip + 1, c :: rest => scan p afterHit (some c) skip rest
  | 0, [] =>
    let a := p.attempt behind []
    match a.taken afterHit with
    | some h => [.hit a.effort h]
    | none => [.stop a.effort]
  | 0, c :: rest =>
    let a := p.attempt behind (c :: rest)
    match a.taken afterHit with
    | none => .pass a.effort c :: scan p false (some c) 0 rest
    | some h =>
      match h.whole.length with
      | 0 => .hit a.effort h :: .pass {} c :: scan p false (some c) 0 rest
      | skip + 1 => .hit a.effort h :: scan p true (some c) skip rest

/-- The same scan with the steps so far, the last one first. Its calls are all last, so a
text of any length is scanned in one loop. -/
def scanFrom (p : Pattern) (done : List Step) (afterHit : Bool) (behind : Option Char) :
    Nat → Text → List Step
  | _ + 1, [] => done.reverse
  | skip + 1, c :: rest => scanFrom p done afterHit (some c) skip rest
  | 0, [] =>
    let a := p.attempt behind []
    match a.taken afterHit with
    | some h => (.hit a.effort h :: done).reverse
    | none => (.stop a.effort :: done).reverse
  | 0, c :: rest =>
    let a := p.attempt behind (c :: rest)
    match a.taken afterHit with
    | none => scanFrom p (.pass a.effort c :: done) false (some c) 0 rest
    | some h =>
      match h.whole.length with
      | 0 => scanFrom p (.pass {} c :: .hit a.effort h :: done) false (some c) 0 rest
      | skip + 1 => scanFrom p (.hit a.effort h :: done) true (some c) skip rest

theorem scanFrom_eq (p : Pattern) (t : Text) (done : List Step) (afterHit : Bool)
    (behind : Option Char) (skip : Nat) :
    p.scanFrom done afterHit behind skip t = done.reverse ++ p.scan afterHit behind skip t := by
  induction t generalizing done afterHit behind skip with
  | nil =>
    cases skip with
    | zero => simp only [scanFrom, scan]; split <;> simp
    | succ _ => simp [scanFrom, scan]
  | cons c t ih =>
    cases skip with
    | succ _ => simp only [scanFrom, scan, ih]
    | zero =>
      simp only [scanFrom, scan]
      split
      · simp [ih]
      · split <;> simp [ih]

/-- The steps of a pattern over a whole text. -/
def steps (p : Pattern) (t : Text) : List Step := p.scanFrom [] false none 0 t

theorem steps_eq (p : Pattern) (t : Text) : p.steps t = p.scan false none 0 t := by
  simp [steps, scanFrom_eq]

/-- The hits of a pattern in a text, from left to right. -/
def hits (p : Pattern) (t : Text) : List Hit := (p.steps t).filterMap Step.hit?

end Pattern

end Spacing
