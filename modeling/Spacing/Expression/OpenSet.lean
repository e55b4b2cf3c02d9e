-- The sets of an expression. A set stands between brackets. It holds characters, ranges,
-- kinds, named classes and other sets, and operators may join its parts.
import Spacing.Expression.Atom
import Spacing.Expression.Nesting

namespace Spacing.Expression

/-! ## Items -/

/-- Reads a character or an escape. -/
def setAtom? (m : Mode) : Text → Option (Atom × Text)
  | [] => none
  | '\\' :: rest => escape? m rest
  | c :: rest => some (.literal c, rest)

/-- The character after a hyphen that decides whether the hyphen makes a range. In a spaced
mode it is looked for behind white space and one number sign, and within the comment that
the sign starts. -/
def beyondHyphen? (m : Mode) (t : Text) : Option Char :=
  if m.spaced then
    let ahead :=
      match t.dropWhile isWhiteSpace with
      | '#' :: comment => comment.dropWhile isWhiteSpace
      | ahead => ahead
    ahead.head?.or t.head?
  else
    t.head?

/-- A range goes from one character up to another. -/
def isRange (m : Mode) : Atom → Atom → Bool
  | .literal a, .literal b => a ≤ b && (Atom.literal a).fitsSet m && (Atom.literal b).fitsSet m
  | _, _ => false

/-- Reads an atom or a range. A hyphen makes no range before a bracket that closes the set
or before another hyphen. -/
def item? (m : Mode) (t : Text) : Option Text := do
  let (first, rest) ← setAtom? m t
  let alone := if first.fitsSet m then some (m.skip rest) else none
  match m.skip rest with
  | '-' :: after =>
    if [some ']', some '-'].contains (beyondHyphen? m after) then
      alone
    else
      let (last, rest) ← setAtom? m (m.skip after)
      if isRange m first last then some rest else none
  | _ => alone

/-! ## Named classes -/

def classNames : List String :=
  ["alnum", "alpha", "ascii", "blank", "cntrl", "digit", "graph", "lower", "print", "punct",
    "space", "upper", "word", "xdigit"]

/-- What follows the name of a class and its closing mark. -/
def afterName? (t : Text) : Option Text :=
  match t.dropWhile (· != ':') with
  | ':' :: ']' :: rest =>
    if classNames.contains (String.ofList (t.takeWhile (· != ':'))) then some rest else none
  | _ => none

/-- Reads a named class after its opening bracket: whether a caret negates it, and what
follows it. -/
def namedClass? : Text → Option (Bool × Text)
  | ':' :: '^' :: t => (afterName? t).map (true, ·)
  | ':' :: t => (afterName? t).map (false, ·)
  | _ => none

/-! ## Sets -/

/-- What has been read of a set that is not closed yet. -/
structure OpenSet where
  /-- Nothing but hyphens has been read. -/
  leading : Bool := true
  /-- The height of what stands before the last operator. -/
  left? : Option Nat := none
  /-- The items after the last operator. -/
  items : Row := {}
deriving Repr, DecidableEq

namespace OpenSet

/-- Adds a hyphen at the start of the set. -/
def addHyphen (s : OpenSet) : OpenSet := { s with items := s.items.push 0 }

def add (s : OpenSet) (height : Nat) : OpenSet :=
  { s with leading := false, items := s.items.push height }

/-- The height of what has been read. An operator is a level above its two sides. -/
def height (s : OpenSet) : Nat :=
  match s.left? with
  | none => s.items.height
  | some left => max left s.items.height + 1

/-- Adds an operator. Operators group from the left. -/
def addOperator (s : OpenSet) : OpenSet := { leading := false, left? := some s.height }

/-- Nothing has been read. -/
def isBare (s : OpenSet) : Bool := s.leading && s.items.count == 0

end OpenSet

/-- The marks that are an operator when they stand twice: intersection, difference and
symmetric difference. -/
def operatorMarks : List Char := ['&', '-', '~']

/-- Reads the caret that negates a set, after the opening bracket. A negated set holds
characters beyond ASCII, so it is not about bytes. -/
def caret? (m : Mode) (t : Text) : Option Text :=
  match m.skip t with
  | '^' :: rest => if m.unicode then some rest else none
  | rest => some rest

/-- Reads on in a set that stands in others: the height of the outermost, and what follows
it. Every step takes a character, so `fuel` is the number of characters and one more. -/
def setFrom? (m : Mode) (fuel : Nat) (s : OpenSet) (outer : List OpenSet) (t : Text) :
    Option (Nat × Text) :=
  match fuel, m.skip t with
  | 0, _ | _, [] => none
  | fuel + 1, c :: rest =>
    if s.leading && c == '-' then
      setFrom? m fuel s.addHyphen outer rest
    else if s.isBare && c == ']' then
      setFrom? m fuel (s.add 0) outer rest
    else if c == ']' then
      match outer with
      | [] => some (s.height + 1, rest)
      | around :: outer => setFrom? m fuel (around.add (s.height + 1)) outer rest
    else if c == '[' then
      match namedClass? rest with
      | some (negated, rest) =>
        if negated && !m.unicode then none else setFrom? m fuel (s.add 0) outer rest
      | none => do setFrom? m fuel {} (s :: outer) (← caret? m rest)
    else if operatorMarks.contains c && rest.head? == some c then
      setFrom? m fuel s.addOperator outer rest.tail
    else do
      setFrom? m fuel (s.add 0) outer (← item? m (c :: rest))

/-- Reads a set after its opening bracket: its height, and what follows it. -/
def set? (m : Mode) (t : Text) : Option (Nat × Text) := do
  let t ← caret? m t
  setFrom? m (t.length + 1) {} [] t

end Spacing.Expression
