-- The command line: which arguments are flags, which one is the path, which are left
-- over, and which are refused. The arguments are read one after another, and the first
-- that is refused ends the reading.
import Spacing.Lines
import Spacing.Terminal

namespace Spacing

inductive Flag
  | check
  | stdout
  | verbose
deriving Repr, DecidableEq

/-- What can be asked for by name. -/
inductive Switch
  | flag (f : Flag)
  | help
  | version
deriving Repr, DecidableEq

namespace Flag

def name : Flag → String
  | check => "check"
  | stdout => "stdout"
  | verbose => "verbose"

end Flag

namespace Switch

def all : List Switch := [.flag .check, .flag .stdout, .flag .verbose, .help, .version]

def name : Switch → String
  | flag f => f.name
  | help => "help"
  | version => "version"

/-- The switch with exactly this name. A part of a name is not enough. -/
def named? (name : Bytes) : Option Switch := all.find? fun s => Bytes.ofString s.name == name

/-- The switch with this letter. Only three switches have one. -/
def ofLetter? : Char → Option Switch
  | 'v' => some (.flag .verbose)
  | 'h' => some .help
  | 'V' => some .version
  | _ => none

end Switch

/-- Why the command line is not run: a help or version text is asked for instead, or an
argument is refused. -/
inductive UsageStop
  | help
  | version
  /-- A switch takes no value. -/
  | unexpectedValue (s : Switch) (value : Bytes)
  | repeated (f : Flag)
  | conflict (first second : Flag)
  | unknown (shown : String)
deriving Repr, DecidableEq

namespace UsageStop

/-- A part of the command line as a refusal quotes it. -/
def quoted (part : String) : String :=
  "'" ++ String.ofList (Terminal.seen part.toList) ++ "'"

/-- The text of a refusal. What is asked for is no refusal and has none. -/
def text : UsageStop → String
  | help | version => ""
  | unexpectedValue s value =>
    "error: unexpected value " ++ quoted (Bytes.display value) ++ " for '--" ++ s.name ++
      "' found; no more were expected"
  | repeated f => "error: the argument '--" ++ f.name ++ "' cannot be used multiple times"
  | conflict first second =>
    "error: the argument '--" ++ first.name ++ "' cannot be used with '--" ++ second.name ++ "'"
  | unknown shown => "error: unexpected argument " ++ quoted shown ++ " found"

/-- The first line of the text. -/
def message (stop : UsageStop) : String :=
  String.ofList ((lines stop.text.toList).headD [])

end UsageStop

/-! ## The form of one argument -/

inductive Form
  /-- Two dashes alone. -/
  | terminator
  | operand
  /-- Two dashes and a name, and a value after an equal sign, if there is one. -/
  | long (name : Bytes) (value? : Option Bytes)
  /-- One dash and letters. -/
  | cluster (letters : Bytes)
deriving Repr, DecidableEq

namespace Form

def dash : UInt8 := 0x2D

def equalSign : UInt8 := 0x3D

/-- The form of an argument. An empty argument and a lone dash are operands. -/
def of : Bytes → Form
  | a :: b :: rest =>
    if a == dash then
      if b == dash then
        if rest.isEmpty then
          .terminator
        else
          .long (rest.takeWhile (· != equalSign)) (rest.dropWhile (· != equalSign)).tail?
      else
        .cluster (b :: rest)
    else
      .operand
  | _ => .operand

end Form

/-! ## Reading -/

/-- What the command line says. The flags are in the order in which they were given. -/
structure Arguments where
  flags : List Flag := []
  path? : Option Bytes := none
  rest : List Bytes := []
deriving Repr, DecidableEq

namespace Arguments

def has (a : Arguments) (f : Flag) : Bool := a.flags.contains f

/-- The first operand is the path, and the others are left over. -/
def operand (a : Arguments) (b : Bytes) : Arguments :=
  match a.path? with
  | none => { a with path? := some b }
  | some _ => { a with rest := a.rest ++ [b] }

def switchOn (a : Arguments) : Switch → Except UsageStop Arguments
  | .help => .error .help
  | .version => .error .version
  | .flag f => if a.has f then .error (.repeated f) else .ok { a with flags := a.flags ++ [f] }

/-- Two dashes and a name. A name that is no switch can still start the path, if it is a
text. What follows an equal sign need not be one. -/
def long (a : Arguments) (argument name : Bytes) (value? : Option Bytes) :
    Except UsageStop Arguments :=
  match Switch.named? name, value? with
  | some s, some value => .error (.unexpectedValue s value)
  | some s, none => a.switchOn s
  | none, _ =>
    if a.path?.isNone && name.isText then
      .ok (a.operand argument)
    else
      .error (.unknown ("--" ++ Bytes.display name))

/-- The letters of a cluster, one after another. Bytes that are no text are refused
together with all that follows them. -/
def letters (a : Arguments) : List Piece → Except UsageStop Arguments
  | [] => .ok a
  | .char c :: rest =>
    match Switch.ofLetter? c with
    | some s =>
      match a.switchOn s with
      | .ok b => letters b rest
      | .error stop => .error stop
    | none => .error (.unknown (String.ofList ['-', c]))
  | .stray b :: rest => .error (.unknown ("-" ++ Piece.showAll (.stray b :: rest)))

/-- A piece that is the letter of a switch. -/
def isSwitchLetter : Piece → Bool
  | .char c => (Switch.ofLetter? c).isSome
  | .stray _ => false

/-- One dash and letters. Letters that are not all switches can still be the path. -/
def cluster (a : Arguments) (argument letters : Bytes) : Except UsageStop Arguments :=
  if a.path?.isNone && !(letters.pieces.all isSwitchLetter) then
    .ok (a.operand argument)
  else
    a.letters letters.pieces

/-- Reads the arguments one after another. After two dashes alone all are operands. -/
def read (a : Arguments) : List Bytes → Except UsageStop Arguments
  | [] => .ok a
  | argument :: rest =>
    match Form.of argument with
    | .terminator => .ok (rest.foldl operand a)
    | .operand => read (a.operand argument) rest
    | .long name value? =>
      match a.long argument name value? with
      | .ok b => read b rest
      | .error stop => .error stop
    | .cluster letters =>
      match a.cluster argument letters with
      | .ok b => read b rest
      | .error stop => .error stop

/-- The two flags that exclude each other, in the order in which they were given. -/
def conflict? (a : Arguments) : Option UsageStop :=
  match a.flags.filter (· != .verbose) with
  | first :: second :: _ => some (.conflict first second)
  | _ => none

/-- Parses a command line. -/
def parse (arguments : List Bytes) : Except UsageStop Arguments :=
  match read {} arguments with
  | .error stop => .error stop
  | .ok a =>
    match a.conflict? with
    | some stop => .error stop
    | none => .ok a

end Arguments

end Spacing
