-- Which events the log shows. A setting is a list of directives, each a level for the
-- events in its scope, and the directive with the narrowest scope decides. A piece of
-- the setting that is no directive is left out with a complaint, or ends the program.
import Spacing.Directive
import Spacing.Lines

namespace Spacing

/-! ## Settings -/

/-- The directives of a log. No two of them have the same scope. -/
abbrev LogFilter := List Directive

namespace LogFilter

/-- A directive takes the place of the one with the same scope. -/
def add (f : LogFilter) (d : Directive) : LogFilter := f.filter (·.scope != d.scope) ++ [d]

/-- The pieces of a setting. Commas separate them, and nothing between two commas is no
piece. -/
def pieces (setting : Text) : List Text := (setting.splitOn ',').filter (!·.isEmpty)

/-- The directives in a setting. -/
def ofText (setting : Text) : LogFilter :=
  ((pieces setting).filterMap fun p => (Directive.read p).toOption).foldl add []

/-- Reading the setting ends the program. -/
def crashes (setting : Text) : Bool := (pieces setting).any Directive.crashes

theorem crashes_nil : crashes [] = false := rfl

/-- What is said about a piece that is left out. -/
def complaint? (piece : Text) : Option Text :=
  match Directive.read piece with
  | .error (.fault fault) =>
    some ("ignoring `".toList ++ piece ++ ("`: " ++ fault.message).toList)
  | _ => none

/-- The complaints about a setting, in order, up to a piece that ends the program. -/
def complaints (setting : Text) : List Text :=
  ((pieces setting).takeWhile (!Directive.crashes ·)).filterMap complaint?

/-- The directive with the narrower of two scopes. -/
def narrower : Option Directive → Directive → Option Directive
  | none, d => some d
  | some best, d => if best.scope.below d.scope then some d else some best

/-- The directive that decides about an event. -/
def deciding? (f : LogFilter) (e : Event) : Option Directive :=
  (f.filter (·.scope.covers e)).foldl narrower none

def shows (f : LogFilter) (e : Event) : Bool :=
  match f.deciding? e with
  | some d => e.level.rank ≤ d.level.rank
  | none => false

/-- The filter of a run: the directives of the setting, and one for all events that depends
on the command line. -/
def ofRun (setting : Text) (verbose : Bool) : LogFilter :=
  add (ofText setting) { scope := {}, level := if verbose then .debug else .warn }

/-- The lines of several texts, one text after another. -/
def linesOf (texts : List Text) : List String := (texts.flatMap lines).map String.ofList

/-- The texts of the events that are shown. -/
def texts (f : LogFilter) (events : List Event) : List Text :=
  (events.filter f.shows).map Event.text

end LogFilter

end Spacing
