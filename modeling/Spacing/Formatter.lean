-- The formatter: the rules of the table in turn, each on what the one before it left.
-- A chain keeps every stage and ends at the first failure.
import Spacing.Rule

namespace Spacing

/-! ## Chains -/

/-- One turn of a chain: what was applied, to which text, and the text that it left. -/
structure Stage (ι : Type) where
  item : ι
  before : Text
  after : Text

def Stage.changed {ι : Type} (s : Stage ι) : Bool := s.after != s.before

/-- The stages that went well, in order, and the failure that ended the chain, if any. -/
structure Chain (ι ε : Type) where
  stages : List (Stage ι)
  failure : Option ε

namespace Chain

/-- Applies the items in turn, each to the text that the one before it left. -/
def run {ι ε : Type} (apply : ι → Text → Except ε Text) : List ι → Text → Chain ι ε
  | [], _ => { stages := [], failure := none }
  | i :: rest, t =>
    match apply i t with
    | .error e => { stages := [], failure := some e }
    | .ok u =>
      let later := run apply rest u
      { later with stages := { item := i, before := t, after := u } :: later.stages }

/-- The text that the last stage left, or the failure. -/
def result {ι ε : Type} (c : Chain ι ε) (start : Text) : Except ε Text :=
  match c.failure with
  | some e => .error e
  | none => .ok ((c.stages.getLast?.map Stage.after).getD start)

theorem result_run {ι ε : Type} (apply : ι → Text → Except ε Text) (items : List ι) (t : Text) :
    (run apply items t).result t = items.foldlM (fun u i => apply i u) t := by
  induction items generalizing t with
  | nil => rfl
  | cons i rest ih =>
    simp only [run, List.foldlM_cons]
    cases h : apply i t with
    | error e => rfl
    | ok u =>
      show _ = rest.foldlM (fun u i => apply i u) u
      rw [← ih u]
      simp only [result]
      cases (run apply rest u).failure with
      | some e => rfl
      | none => cases (run apply rest u).stages <;> simp [List.getLast?_cons]

end Chain

namespace Formatter

/-- The rules in turn, each on what the one before it left. -/
def applyAll (rules : List Rule) (t : Text) : Except RuleError Text :=
  rules.foldlM (fun u r => r.apply u) t

/-- Formats a text. -/
def format (t : Text) : Except RuleError Text := applyAll Rule.table t

/-- The formatting of a text with all its stages. -/
def trace (t : Text) : Chain Rule RuleError := Chain.run Rule.apply Rule.table t

theorem result_trace (t : Text) : (trace t).result t = format t :=
  Chain.result_run Rule.apply Rule.table t

/-- Formats a text again and again. -/
def iterate (times : Nat) (t : Text) : Chain Unit RuleError :=
  Chain.run (fun _ => format) (List.replicate times ()) t

/-- Why a chain of named rules ended. -/
inductive TurnError
  | unknownRule (name : String)
  | failed (e : RuleError)

/-- The turn of the rule with the given name. -/
def applyNamed (name : String) (t : Text) : Except TurnError Text :=
  match Rule.named? name with
  | none => .error (.unknownRule name)
  | some r => (r.apply t).mapError .failed

/-- The named rules in turn. -/
def traceNamed (names : List String) (t : Text) : Chain String TurnError :=
  Chain.run applyNamed names t

end Formatter

end Spacing
