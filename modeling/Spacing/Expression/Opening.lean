-- What follows an opening parenthesis in an expression: the content of a group, perhaps
-- after its name or its flags, or flags alone.
import Spacing.Alphanumeric
import Spacing.Expression.Atom

namespace Spacing.Expression

/-- What a parenthesis opens. -/
inductive Opening
  /-- A group. Its inside has a mode of its own. -/
  | group (inside : Mode) (name? : Option Text)
  /-- Flags, which hold up to the end of the group around them. -/
  | flags (mode : Mode)
deriving Repr, DecidableEq

/-! ## Flags -/

/-- The letters of the flags, and the hyphen that switches off the flags after it. -/
def flagMarks : List Char := ['i', 'm', 's', 'U', 'u', 'R', 'x', '-']

/-- The mode with a flag on or off. The other flags are about what an expression matches. -/
def Mode.set (m : Mode) (flag : Char) (on : Bool) : Mode :=
  match flag with
  | 'x' => { m with spaced := on }
  | 'u' => { m with unicode := on }
  | _ => m

/-- Reads flags and the mark that ends them. No mark stands twice, a hyphen is not the last
one, and flags alone are not empty. `seen` holds the marks so far, the last one first. -/
def flags? (m : Mode) (seen : List Char) : Text → Option (Opening × Text)
  | [] => none
  | c :: rest =>
    if c == ':' || c == ')' then
      if seen.head? == some '-' then
        none
      else if c == ':' then
        some (.group m none, rest)
      else if seen.isEmpty then
        none
      else
        some (.flags m, rest)
    else if flagMarks.contains c && !seen.contains c then
      flags? (m.set c (!seen.contains '-')) (c :: seen) rest
    else
      none

/-! ## Names -/

/-- The name of a group. -/
def isName : Text → Bool
  | [] => false
  | c :: t =>
    (c == '_' || isAlphabetic c) &&
      t.all fun d => isAlphanumeric d || ['_', '.', '[', ']'].contains d

/-- Reads the name of a group and the mark that ends it. -/
def name? (m : Mode) (t : Text) : Option (Opening × Text) :=
  match t.dropWhile (· != '>') with
  | [] => none
  | _ :: rest =>
    let name := t.takeWhile (· != '>')
    if isName name then some (.group m (some name), rest) else none

/-! ## Openings -/

/-- Reads what follows an opening parenthesis. -/
def opening? (m : Mode) (t : Text) : Option (Opening × Text) :=
  match m.skip t with
  | '?' :: 'P' :: '<' :: rest | '?' :: '<' :: rest => name? m rest
  | '?' :: rest => flags? m [] rest
  | rest => some (.group m none, rest)

end Spacing.Expression
