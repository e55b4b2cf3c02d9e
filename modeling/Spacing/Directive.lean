-- The directives of a log setting: what each is about, and how it is read.
import Spacing.Alphanumeric
import Spacing.Event
import Spacing.Expression
import Spacing.Number

namespace Spacing

/-! ## Directives -/

/-- What a directive is about: the targets that start with a text, a span, or a field with
or without a value. What is not named is not looked at. -/
structure Scope where
  target? : Option Text := none
  span? : Option Text := none
  field? : Option Text := none
  value? : Option Text := none
deriving Repr, DecidableEq

namespace Scope

/-- The event is in the scope. A named span and the value of a field are about spans, and
the program is never inside one. -/
def covers (s : Scope) (e : Event) : Bool :=
  s.span?.isNone && s.value?.isNone && (s.target?.getD []).isPrefixOf e.target.toList &&
    s.field?.all fun name => e.hasField (String.ofList name)

/-- A name is narrower than none, and a name later in the alphabet narrower than one
before it. -/
def fieldBelow : Option Text → Option Text → Bool
  | none, some _ => true
  | some a, some b => a < b
  | _, none => false

/-- The second scope is narrower: its target is longer, or its target is as long and its
field is narrower. -/
def below (a b : Scope) : Bool :=
  let longer := (b.target?.getD []).length
  let shorter := (a.target?.getD []).length
  shorter < longer || (shorter == longer && fieldBelow a.field? b.field?)

end Scope

structure Directive where
  scope : Scope
  level : Level
deriving Repr, DecidableEq

/-- What is wrong with a directive. -/
inductive DirectiveFault
  | form
  | level
  | field (f : ExpressionFault)
deriving Repr, DecidableEq

namespace DirectiveFault

def message : DirectiveFault → String
  | form => "invalid filter directive"
  | level =>
    "error parsing level filter: expected one of " ++
      "\"off\", \"error\", \"warn\", \"info\", \"debug\", \"trace\", or a number 0-5"
  | field f => "invalid field filter: " ++ f.message

end DirectiveFault

/-- What ends the reading of a directive. -/
inductive DirectiveStop
  | fault (f : DirectiveFault)
  /-- A part was to be cut out at a place inside a character. This ends the whole program. -/
  | crash
deriving Repr, DecidableEq

/-! ## Reading a directive

A directive has the form `target[span{field=value}]=level`, and may be a level alone. Its
form is read without the white space around it. The parts are then cut out of the text with
that white space, at the same places. So a directive after white space has no effect, and a
character of several bytes in it can make the cut impossible. A place is the number of bytes
before it. -/

namespace Directive

def trim (t : Text) : Text :=
  ((t.dropWhile isWhiteSpace).reverse.dropWhile isWhiteSpace).reverse

/-- The characters that a target starts with. Any may follow. -/
def startsTarget (c : Char) : Bool := isAlphanumeric c || c == '-' || c == ':' || c == '_'

/-- The number of bytes of a text. -/
def size : Text → Nat
  | [] => 0
  | c :: t => c.utf8Size + size t

/-- The text from a place on. -/
def fromPlace : Nat → Text → Except DirectiveStop Text
  | 0, t => .ok t
  | _ + 1, [] => .error .crash
  | place + 1, c :: t =>
    if place + 1 < c.utf8Size then .error .crash else fromPlace (place + 1 - c.utf8Size) t

/-- The text up to a place. -/
def upTo : Nat → Text → Except DirectiveStop Text
  | 0, _ => .ok []
  | _ + 1, [] => .error .crash
  | place + 1, c :: t =>
    if place + 1 < c.utf8Size then .error .crash
    else (upTo (place + 1 - c.utf8Size) t).map (c :: ·)

/-- The part of a text between two places. -/
def cut (t : Text) (first last : Nat) : Except DirectiveStop Text :=
  (fromPlace first t).bind (upTo (last - first))

/-- The level at the end of a directive. If nothing is left it is the highest. -/
def withLevel (s : Scope) (t : Text) : Except DirectiveStop Directive :=
  if t.isEmpty then
    .ok { scope := s, level := .trace }
  else
    match Level.ofText? t with
    | some level => .ok { scope := s, level }
    | none => .error (.fault .level)

/-- What follows the closing bracket, `ahead` in the form. The bracket stands before
`place`. -/
def afterBracket (s : Scope) (whole ahead : Text) (place : Nat) :
    Except DirectiveStop Directive :=
  match ahead with
  | [] => .ok { scope := s, level := .trace }
  | '=' :: _ => (fromPlace (place + 1) whole).bind (withLevel s)
  | _ => .error (.fault .form)

/-- What is wrong with the value of a field. A value is a number or an expression. -/
def valueFault? (value : Text) : Option DirectiveFault :=
  if Number.isNumber value then none else (Expression.fault? value).map .field

/-- Reads a field. Its value is looked at before anything that follows. -/
def withField (s : Scope) (field : Text) : Except DirectiveStop Scope :=
  let parts := field.splitOn '='
  if field.isEmpty then
    .error (.fault .form)
  else
    match parts[1]?.bind valueFault? with
    | some f => .error (.fault f)
    | none => .ok { s with field? := parts.head?, value? := parts[1]? }

/-- The field between braces, and what follows it. The field starts at `place`. -/
def afterBrace (s : Scope) (whole ahead : Text) (place : Nat) : Except DirectiveStop Directive :=
  let close := place + size (ahead.takeWhile (· != '\x7d'))
  match ahead.dropWhile (· != '\x7d') with
  | [] => .error (.fault .form)
  | _ :: rest =>
    ((cut whole place close).bind (withField s)).bind fun s =>
      match rest with
      | ']' :: rest => afterBracket s whole rest (close + 2)
      | _ => .error (.fault .form)

/-- The span and the field between brackets, and what follows them. The span starts at
`place`. -/
def afterTarget (s : Scope) (whole ahead : Text) (place : Nat) : Except DirectiveStop Directive :=
  let inSpan (c : Char) := c != ']' && c != '\x7b'
  let stop := place + size (ahead.takeWhile inSpan)
  match ahead.dropWhile inSpan with
  | [] => .error (.fault .form)
  | mark :: rest =>
    (cut whole place stop).bind fun span =>
      if mark == ']' then
        afterBracket { s with span? := some span } whole rest (stop + 1)
      else
        afterBrace (if span.isEmpty then s else { s with span? := some span }) whole rest (stop + 1)

/-- A directive that starts with a target, or is a level alone. -/
def withTarget (whole form : Text) : Except DirectiveStop Directive :=
  let inTarget (c : Char) := c != '=' && c != '['
  let stop := size (form.takeWhile inTarget)
  match form.dropWhile inTarget with
  | [] =>
    match Level.ofText? whole with
    | some level => .ok { scope := {}, level }
    | none => .ok { scope := { target? := some whole }, level := .trace }
  | mark :: rest =>
    (cut whole 0 stop).bind fun target =>
      if mark == '=' then
        (fromPlace (stop + 1) whole).bind (withLevel { target? := some target })
      else
        afterTarget { target? := some target } whole rest (stop + 1)

/-- Reads a directive. -/
def read (t : Text) : Except DirectiveStop Directive :=
  match trim t with
  | [] => .error (.fault .form)
  | c :: rest =>
    if c == '[' then afterTarget {} t rest 1
    else if !startsTarget c then .error (.fault .form)
    else withTarget t (c :: rest)

/-- Reading the directive ends the program. -/
def crashes (t : Text) : Bool :=
  match read t with
  | .error .crash => true
  | _ => false

end Directive

end Spacing
