-- What the program reports about its work: the events of the log, each with a level and
-- a target, and the line that shows it.
import Spacing.Terminal

namespace Spacing

/-- How much is shown, from nothing to all. An event has one of the levels after `off`. -/
inductive Level
  | off
  | error
  | warn
  | info
  | debug
  | trace
deriving Repr, DecidableEq

namespace Level

def rank : Level → Nat
  | off => 0
  | error => 1
  | warn => 2
  | info => 3
  | debug => 4
  | trace => 5

def all : List Level := [off, error, warn, info, debug, trace]

def name : Level → String
  | off => "OFF"
  | error => "ERROR"
  | warn => "WARN"
  | info => "INFO"
  | debug => "DEBUG"
  | trace => "TRACE"

/-- The digits of a number, after one plus sign at most. -/
def digits? (t : Text) : Option Text :=
  let digits := if t.head? == some '+' then t.tail else t
  if !digits.isEmpty && digits.all Char.isDigit then some digits else none

/-- The level with a name, in capitals or not, or with its rank as a number. Zeros may
stand in front of the rank. -/
def ofText? (t : Text) : Option Level :=
  match digits? t with
  | some digits =>
    let rank := digits.dropWhile (· == '0')
    all.find? fun l => rank == (if l == off then [] else Nat.toDigits 10 l.rank)
  | none => all.find? fun l => t.map Char.toUpper == l.name.toList

end Level

inductive Event
  | ignoringArguments (count : Nat)
  | readDocument (path : Bytes) (bytes : Nat)
  | changedText (rule : String)
  | wroteDocument (path : Bytes) (changed : Bool)
  | failed (message : String) (path : Bytes)
deriving Repr, DecidableEq

namespace Event

def level : Event → Level
  | failed _ _ => .error
  | _ => .debug

def target : Event → String
  | ignoringArguments _ | failed _ _ => "opspace::cli"
  | readDocument _ _ | wroteDocument _ _ => "opspace::file"
  | changedText _ => "opspace::format"

def message : Event → String
  | ignoringArguments _ => "ignoring arguments after the path"
  | readDocument _ _ => "read document"
  | changedText _ => "rule rewrote text"
  | wroteDocument _ _ => "wrote document"
  | failed message _ => message

/-- The fields with their values. -/
def fields : Event → List (String × String)
  | ignoringArguments count => [("count", toString count)]
  | readDocument path bytes => [("path", Bytes.display path), ("bytes", toString bytes)]
  | changedText rule => [("rule", "\"" ++ rule ++ "\"")]
  | wroteDocument path changed => [("path", Bytes.display path), ("changed", toString changed)]
  | failed _ path => [("path", Bytes.display path)]

/-- The event has a field with this name. The message counts as one. -/
def hasField (e : Event) (name : String) : Bool :=
  name == "message" || e.fields.any (·.1 == name)

/-- The text of the event in the log. -/
def text (e : Event) : Text :=
  (e.level.name ++ " " ++ e.target ++ ": ").toList ++ Terminal.spell e.message.toList ++
    e.fields.flatMap fun (name, value) => (" " ++ name ++ "=" ++ value).toList

end Event

end Spacing
