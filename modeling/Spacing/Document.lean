-- Formatting one file: read it, format its text, and write, print or only compare the
-- result. The file is not opened for a write before the whole text is formatted.
import Spacing.Formatter
import Spacing.Event
import Spacing.Tree

namespace Spacing

/-- Where the formatted text goes. -/
inductive WriteMode
  /-- Into the file, also when nothing changed. -/
  | inPlace
  | stdout
  /-- Nowhere. Only the change is reported. -/
  | check
deriving Repr, DecidableEq, Inhabited

inductive FormatError
  | read (path : Bytes) (fault : Fault)
  | write (path : Bytes) (fault : Fault)
  | rule (e : RuleError)
deriving Repr, DecidableEq

namespace FormatError

def message : FormatError → String
  | read path fault => "could not read " ++ Bytes.display path ++ ": " ++ fault.message
  | write path fault => "could not write " ++ Bytes.display path ++ ": " ++ fault.message
  | rule e => e.message

end FormatError

/-- What became of one call: the events in order, what was printed, and whether the text
changed or why the call failed. -/
structure Call where
  events : List Event
  printed : Text := []
  changed : Except FormatError Bool

/-- What is left to do once the file is read and its text is formatted. -/
inductive Plan
  | finish (call : Call)
  | store (events : List Event) (changed : Bool) (text : Text)

/-- What a mode asks for once the text is formatted. -/
def Plan.ofMode (events : List Event) (changed : Bool) (formatted : Text) : WriteMode → Plan
  | .inPlace => .store events changed formatted
  | .stdout => .finish { events, printed := formatted, changed := .ok changed }
  | .check => .finish { events, changed := .ok changed }

namespace Document

/-- The rules that changed the text, in order. -/
def changes (stages : List (Stage Rule)) : List Event :=
  (stages.filter Stage.changed).map fun s => .changedText s.item.name

/-- What to do with a text that was read. -/
def planText (path : Bytes) (mode : WriteMode) (size : Nat) (text : Text) : Plan :=
  let trace := Formatter.trace text
  let events := .readDocument path size :: changes trace.stages
  match trace.result text with
  | .error e => .finish { events, changed := .error (.rule e) }
  | .ok formatted => .ofMode events (formatted != text) formatted mode

/-- What to do with what reading the file gave. -/
def plan (path : Bytes) (mode : WriteMode) (content : Except Fault ByteArray) : Plan :=
  match content with
  | .error f => .finish { events := [], changed := .error (.read path f) }
  | .ok bytes =>
    match String.fromUTF8? bytes with
    | none => .finish { events := [], changed := .error (.read path .notText) }
    | some s => planText path mode bytes.size s.toList

/-- The call after its text was written, or was not. -/
def stored (path : Bytes) (events : List Event) (changed : Bool) : Except Fault Unit → Call
  | .error f => { events, changed := .error (.write path f) }
  | .ok () => { events := events ++ [.wroteDocument path changed], changed := .ok changed }

def encode (t : Text) : ByteArray := (String.ofList t).toUTF8

end Document

/-- A call, and the tree after it. -/
structure TreeCall where
  call : Call
  tree : Tree
  /-- The regular file that was opened for a write, which empties it. -/
  opened? : Option NodeId := none
  /-- The regular file that the whole text was written to. -/
  written? : Option NodeId := none

/-- The call after a write was tried. -/
def TreeCall.ofWrite (path : Bytes) (events : List Event) (changed : Bool)
    (opened? : Option NodeId) : Except Tree.BrokenWrite Tree → TreeCall
  | .error w =>
    { call := Document.stored path events changed (.error w.fault), tree := w.tree, opened? }
  | .ok u =>
    { call := Document.stored path events changed (.ok ()), tree := u, opened?
      written? := opened? }

/-- Formats the file that a path leads to. -/
def Tree.formatFile (t : Tree) (path : Bytes) (mode : WriteMode) : TreeCall :=
  match Document.plan path mode (t.read path) with
  | .finish call => { call, tree := t }
  | .store events changed text =>
    .ofWrite path events changed (t.opened? path) (t.overwrite path (Document.encode text))

end Spacing
