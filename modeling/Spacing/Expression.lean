-- Expressions, the patterns that the value of a field is compared with. No event of the
-- program is in the scope of a directive with a value, so all that counts here is whether
-- an expression can be used, and not what it matches.
import Spacing.Expression.OpenSet
import Spacing.Expression.Opening

namespace Spacing.Expression

/-! ## Open groups -/

/-- What has been read of a group that is not closed yet. The whole expression is one. -/
structure OpenGroup where
  /-- The mode around the group. -/
  around : Mode := {}
  /-- The greatest height of the branches before the current one. -/
  earlier? : Option Nat := none
  /-- The parts of the current branch. -/
  parts : Row := {}
  /-- The height of the last part, if it can be repeated. -/
  last? : Option Nat := none
deriving Repr, DecidableEq

namespace OpenGroup

def add (g : OpenGroup) (height : Nat) : OpenGroup :=
  { g with parts := g.parts.push height, last? := some height }

/-- Adds flags, which are a part that cannot be repeated. -/
def addFlags (g : OpenGroup) : OpenGroup := { g with parts := g.parts.push 0, last? := none }

/-- Repeats the last part, which is a level above it. -/
def repeat? (g : OpenGroup) : Option OpenGroup :=
  g.last?.map fun last =>
    { g with
      parts := { g.parts with greatest := max g.parts.greatest (last + 1) }
      last? := some (last + 1) }

/-- Starts another branch. -/
def alternate (g : OpenGroup) : OpenGroup :=
  { around := g.around, earlier? := some (max (g.earlier?.getD 0) g.parts.height) }

/-- The height of what has been read. Several branches are a level of their own. -/
def height (g : OpenGroup) : Nat :=
  match g.earlier? with
  | none => g.parts.height
  | some earlier => max earlier g.parts.height + 1

end OpenGroup

/-! ## Reading -/

/-- What has been read of an expression. -/
structure Reader where
  mode : Mode := {}
  group : OpenGroup := {}
  /-- The open groups around the current one, the innermost first. -/
  outer : List OpenGroup := []
  /-- The names of the groups. -/
  names : List Text := []
  /-- The expression tells words apart by the characters of the standard. -/
  wordEdge : Bool := false
deriving Repr, DecidableEq

namespace Reader

def add (r : Reader) (height : Nat) : Reader := { r with group := r.group.add height }

def addAtom (r : Reader) (a : Atom) : Reader :=
  { r.add 0 with wordEdge := r.wordEdge || (a == .wordEdge && r.mode.unicode) }

/-- Opens a group, or switches flags. A name stands once. -/
def open? (r : Reader) : Opening → Option Reader
  | .flags mode => some { r with mode, group := r.group.addFlags }
  | .group inside name? =>
    if name?.any r.names.contains then
      none
    else
      some
        { r with
          mode := inside
          group := { around := r.mode }
          outer := r.group :: r.outer
          names := name?.toList ++ r.names }

/-- Closes the current group, which is a level above what it holds. -/
def close? (r : Reader) : Option Reader :=
  match r.outer with
  | [] => none
  | group :: outer =>
    some
      { r with
        mode := r.group.around
        group := group.add (r.group.height + 1)
        outer }

/-- Reads what starts with a given character. A repetition takes a question mark that
follows it at once. A brace has to be closed, which no brace in a value is. -/
def step? (r : Reader) (c : Char) (rest : Text) : Option (Reader × Text) :=
  match c with
  | '(' => do
    let (opening, rest) ← opening? r.mode rest
    return (← r.open? opening, rest)
  | ')' => r.close?.map (·, rest)
  | '|' => some ({ r with group := r.group.alternate }, rest)
  | '[' => (set? r.mode rest).map fun (height, rest) => (r.add height, rest)
  | '?' | '*' | '+' =>
    let rest := if rest.head? == some '?' then rest.tail else rest
    r.group.repeat?.map fun group => ({ r with group }, rest)
  | '\x7b' => none
  | '\\' => (escape? r.mode rest).map fun (a, rest) => (r.addAtom a, rest)
  | '.' => if r.mode.unicode then some (r.add 0, rest) else none
  | _ => some (r.add 0, rest)

/-- Reads on up to the end. Every step takes a character, so `fuel` is the number of
characters and one more. -/
def run? (fuel : Nat) (r : Reader) (t : Text) : Option Reader :=
  match fuel, r.mode.skip t with
  | _, [] => some r
  | 0, _ => none
  | fuel + 1, c :: rest => do
    let (r, rest) ← r.step? c rest
    r.run? fuel rest

/-- All groups are closed, and the expression is not too deep. -/
def isComplete (r : Reader) : Bool := r.outer.isEmpty && r.group.height ≤ maxHeight

end Reader

end Expression

/-! ## Faults -/

/-- Why an expression cannot be used. -/
inductive ExpressionFault
  /-- It is no expression. -/
  | malformed
  /-- It is about the edges of words. These are looked for only among bytes. -/
  | wordEdge
deriving Repr, DecidableEq

namespace ExpressionFault

def message : ExpressionFault → String
  | malformed => "error building NFA"
  | wordEdge =>
    "unsupported regex feature for DFAs: cannot build DFAs for regexes with Unicode word " ++
      "boundaries; switch to ASCII word boundaries, or heuristically enable Unicode word " ++
      "boundaries or use a different regex engine"

end ExpressionFault

namespace Expression

/-- What is wrong with an expression. -/
def fault? (t : Text) : Option ExpressionFault :=
  match Reader.run? (t.length + 1) {} t with
  | none => some .malformed
  | some r =>
    if !r.isComplete then
      some .malformed
    else if r.wordEdge then
      some .wordEdge
    else
      none

end Expression

end Spacing
