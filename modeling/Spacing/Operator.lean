-- The seven operators, in the order in which they are tried, and when one of them
-- stands at a place of a text.
import Spacing.Solid

namespace Spacing

inductive Operator
  | plus
  | minus
  | times
  | divide
  | equal
  | unequal
  | assign
deriving Repr, DecidableEq

namespace Operator

def text : Operator → Text
  | plus => ['+']
  | minus => ['-']
  | times => ['*']
  | divide => ['/']
  | equal => ['=', '=']
  | unequal => ['!', '=']
  | assign => ['=']

/-- The order of trial: the operators of two characters come before a lone `=`. -/
def all : List Operator := [plus, minus, times, divide, equal, unequal, assign]

theorem mem_all (op : Operator) : op ∈ all := by cases op <;> decide

/-- The operator stands at the head of the text, with a solid character right after it. -/
def fits (op : Operator) (ahead : Text) : Bool :=
  op.text.isPrefixOf ahead && solidAhead (ahead.drop op.text.length)

/-- The operator found at the head of a text: the first in the order of trial that fits. -/
def at? (ahead : Text) : Option Operator := all.find? (·.fits ahead)

/-- How many operators are tried in vain at the head of a text. -/
def misses (ahead : Text) : Nat := all.findIdx (·.fits ahead)

theorem text_ne_nil (op : Operator) : op.text ≠ [] := by cases op <;> simp [text]

theorem misses_of_at?_eq_none {ahead : Text} (h : at? ahead = none) : misses ahead = 7 := by
  unfold misses
  rw [List.findIdx_eq_length_of_false]
  · rfl
  · simpa [at?, List.find?_eq_none] using h

theorem fits_of_at? {ahead : Text} {op : Operator} (h : at? ahead = some op) :
    op.fits ahead = true :=
  List.find?_some (p := fun o : Operator => o.fits ahead) h

end Operator

end Spacing
