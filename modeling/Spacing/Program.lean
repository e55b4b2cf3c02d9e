-- The program: from the command line and the log's setting to an exit status, the
-- output and the log, with one file formatted in between.
import Spacing.Arguments
import Spacing.LogFilter
import Spacing.Document

namespace Spacing

/-- What a run shows to the outside. -/
structure Answer where
  exit : Nat
  stdout : Text := []
  stderr : List String := []
deriving Repr, DecidableEq

/-- The file to format, and how. -/
structure Job where
  path : Bytes
  mode : WriteMode
  filter : LogFilter
  complaints : List Text
  ignored : Nat

namespace Program

/-! ## Texts -/

def usageLine : String := "Please provide a file path\n"

def versionText : String := "opspace 0.1.0\n"

def helpText : String :=
  "Normalize operator and comma spacing in a source file, in place\n" ++
  "\n" ++
  "Usage: opspace [OPTIONS] [PATH]\n" ++
  "\n" ++
  "Arguments:\n" ++
  "  [PATH]  File to format in place\n" ++
  "\n" ++
  "Options:\n" ++
  "      --stdout   Print the formatted text instead of overwriting the file\n" ++
  "      --check    Exit with status 1 if the file would be reformatted; write nothing\n" ++
  "  -v, --verbose  Enable verbose logging (sets log level to DEBUG)\n" ++
  "  -h, --help     Print help\n" ++
  "  -V, --version  Print version\n"

/-! ## Before the file -/

/-- Why the program is not started. -/
def startFault? (arguments : List Bytes) (setting : Text) : Option Fault :=
  if arguments.any (·.contains 0) || setting.contains '\x00' then
    some .zeroByteInArguments
  else
    none

/-- The answer to a command line that is not run. -/
def stopped : UsageStop → Answer
  | .help => { exit := 0, stdout := helpText.toList }
  | .version => { exit := 0, stdout := versionText.toList }
  | stop => { exit := 2, stderr := [stop.message] }

def writeMode (a : Arguments) : WriteMode :=
  if a.has .check then .check else if a.has .stdout then .stdout else .inPlace

/-- The answer of a run that ends while the setting of its log is read. The report of the
crash itself, which names places in libraries, is left out. -/
def crashed (setting : Text) : Answer :=
  { exit := 101, stderr := LogFilter.linesOf (LogFilter.complaints setting) }

/-- What a command line asks for: an answer at once, or a file to format. An empty path
counts as none. -/
def job (arguments : List Bytes) (setting : Text) : Except Answer Job :=
  match Arguments.parse arguments with
  | .error stop => .error (stopped stop)
  | .ok a =>
    let complaints := LogFilter.complaints setting
    if LogFilter.crashes setting then
      .error (crashed setting)
    else
      match a.path?.filter (!·.isEmpty) with
      | none =>
        .error { exit := 1, stdout := usageLine.toList, stderr := LogFilter.linesOf complaints }
      | some path =>
        .ok { path, complaints, mode := writeMode a, ignored := a.rest.length,
              filter := LogFilter.ofRun setting (a.has .verbose) }

/-! ## After the file -/

/-- Arguments after the path are ignored, and the log says so. -/
def ignoring (count : Nat) : List Event :=
  if count == 0 then [] else [.ignoringArguments count]

/-- All events of the run. -/
def events (j : Job) (c : Call) : List Event :=
  ignoring j.ignored ++ c.events ++
    match c.changed with
    | .error e => [.failed e.message j.path]
    | .ok _ => []

/-- A failure is reported and not signalled by the exit status. Only a check that finds a
change is. -/
def answer (j : Job) (c : Call) : Answer :=
  let stderr := LogFilter.linesOf (j.complaints ++ j.filter.texts (events j c))
  match c.changed with
  | .error e => { exit := 0, stdout := c.printed ++ (e.message ++ "\n").toList, stderr }
  | .ok changed =>
    if j.mode == .check && changed then
      { exit := 1, stderr,
        stdout := c.printed ++ (Bytes.display j.path ++ ": would reformat\n").toList }
    else
      { exit := 0, stdout := c.printed, stderr }

/-- A run, and the tree after it. -/
structure Run where
  answer : Answer
  tree : Tree
  /-- The regular file that was opened for a write, which empties it. -/
  opened? : Option NodeId := none
  /-- The regular file that the whole text was written to. -/
  written? : Option NodeId := none

/-- Runs the program on a tree. -/
def run (t : Tree) (arguments : List Bytes) (setting : Text) : Run :=
  match job arguments setting with
  | .error a => { answer := a, tree := t }
  | .ok j =>
    let r := t.formatFile j.path j.mode
    { answer := answer j r.call, tree := r.tree, opened? := r.opened?, written? := r.written? }

end Program

end Spacing
