-- The command line program. It reads the file, writes and prints, and leaves every decision
-- to the modules that it calls.
import Spacing.Program

namespace Spacing

/-- The number and the words of the operating system in an error. -/
def errorParts : IO.Error → Nat × String
  | .alreadyExists _ code words | .otherError code words | .resourceBusy code words
  | .resourceVanished code words | .unsupportedOperation code words | .hardwareFault code words
  | .unsatisfiedConstraints code words | .illegalOperation code words
  | .protocolError code words | .timeExpired code words | .interrupted _ code words
  | .noFileOrDirectory _ code words | .invalidArgument _ code words
  | .permissionDenied _ code words | .resourceExhausted _ code words
  | .inappropriateType _ code words | .noSuchThing _ code words => (code.toNat, words)
  | .unexpectedEof => (0, "")
  | .userError words => (0, words)

/-- Does a file operation, and gives its fault if it fails. -/
def attempt {α : Type} (operation : IO α) : BaseIO (Except Fault α) := do
  match ← operation.toBaseIO with
  | .ok a => return .ok a
  | .error e =>
    let (code, words) := errorParts e
    return .error (Fault.ofCode code words)

def readFile (path : String) : IO ByteArray := do
  let file ← IO.FS.Handle.mk path .read
  file.readBinToEnd

/-- Formats the file of a job. -/
def formatFile (path : String) (job : Job) : IO Call := do
  match Document.plan job.path job.mode (← attempt (readFile path)) with
  | .finish call => return call
  | .store events changed text =>
    let outcome ← attempt (IO.FS.writeBinFile path (Document.encode text))
    return Document.stored job.path events changed outcome

/-- Prints an answer, and gives its exit status. -/
def report (a : Answer) : IO UInt32 := do
  for line in a.stderr do
    IO.eprintln line
  IO.print (String.ofList a.stdout)
  return UInt32.ofNat a.exit

/-- The variable of the environment that holds the log's setting. -/
def settingName : String := "RUST_LOG"

end Spacing

open Spacing

def main (arguments : List String) : IO UInt32 := do
  let setting ← IO.getEnv settingName
  match Program.job (arguments.map Bytes.ofString) (setting.getD "").toList with
  | .error answer => report answer
  | .ok job => report (Program.answer job (← formatFile (Bytes.display job.path) job))
