-- The spacing rules: a pattern, and what each hit is replaced by. The table holds the
-- five rules of the formatter in their order.
import Spacing.Limit

namespace Spacing

/-- What a hit is replaced by. -/
inductive Replacement
  /-- The kept part, with a text on each side. -/
  | wrap (before after : Text)
  | literal (text : Text)
deriving Repr, DecidableEq

namespace Replacement

def fill : Replacement → Hit → Text
  | wrap before after, h => before ++ h.kept ++ after
  | literal text, _ => text

/-- What is written for one step of a scan. -/
def write (r : Replacement) : Step → Text
  | .pass _ c => [c]
  | .hit _ h => r.fill h
  | .stop _ => []

end Replacement

structure Rule where
  name : String
  pattern : Pattern
  replacement : Replacement
deriving Repr, DecidableEq

/-- A rule whose search was given up. -/
structure RuleError where
  rule : String
  overrun : Overrun
deriving Repr, DecidableEq

def RuleError.message (e : RuleError) : String :=
  "rule `" ++ e.rule ++ "` failed to match: " ++ e.overrun.message

namespace Rule

/-- The text with every hit replaced and all else kept, limits aside. -/
def replaceAll (r : Rule) (t : Text) : Text := (r.pattern.steps t).flatMap r.replacement.write

/-- The rule's turn on a text. It gives no text at all when its search is given up. -/
def apply (r : Rule) (t : Text) : Except RuleError Text :=
  let steps := r.pattern.steps t
  match r.pattern.overrun? steps with
  | some o => .error { rule := r.name, overrun := o }
  | none => .ok (steps.flatMap r.replacement.write)

theorem apply_eq (r : Rule) (t : Text) :
    r.apply t = match r.pattern.overrun? (r.pattern.steps t) with
      | some o => .error { rule := r.name, overrun := o }
      | none => .ok (r.replaceAll t) := rfl

theorem eq_replaceAll_of_apply {r : Rule} {t u : Text} (h : r.apply t = .ok u) :
    u = r.replaceAll t := by
  rw [apply_eq] at h
  split at h <;> simp_all

/-! ## The table -/

def operatorSpacing : Rule :=
  { name := "operator-spacing", pattern := .operator, replacement := .wrap [' '] [' '] }

def operatorLeadingSpace : Rule :=
  { name := "operator-leading-space", pattern := .operator, replacement := .wrap [' '] [] }

def commaSpacing : Rule :=
  { name := "comma-spacing", pattern := .commaBlanks, replacement := .literal [',', ' '] }

def commaLineEnd : Rule :=
  { name := "comma-line-end", pattern := .commaLineEnd, replacement := .literal [',', '\n'] }

def doubleEqualsRepair : Rule :=
  { name := "double-equals-repair", pattern := .tornEquals, replacement := .literal ['=', '='] }

/-- The rules of the formatter, in their order. -/
def table : List Rule :=
  [operatorSpacing, operatorLeadingSpace, commaSpacing, commaLineEnd, doubleEqualsRepair]

def named? (name : String) : Option Rule := table.find? (·.name == name)

end Rule

end Spacing
