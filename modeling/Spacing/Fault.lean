-- Why a file operation fails, in the words of the operating system.

namespace Spacing

inductive Fault
  | notPermitted
  | notFound
  | denied
  | occupied
  | otherDevice
  | notFolder
  | isFolder
  | nameTooLong
  | linkLoop
  /-- A name that holds a zero byte never reaches the operating system. -/
  | zeroByte
  /-- A command line that holds a zero byte never reaches a program. -/
  | zeroByteInArguments
  /-- The file is there, but it holds no text. -/
  | notText
  | other (words : String) (code : Nat)
deriving Repr, DecidableEq

namespace Fault

/-- An operating system's fault: its words and its number. -/
def numbered (words : String) (code : Nat) : String :=
  words ++ " (os error " ++ toString code ++ ")"

def message : Fault → String
  | notPermitted => numbered "Operation not permitted" 1
  | notFound => numbered "No such file or directory" 2
  | denied => numbered "Permission denied" 13
  | occupied => numbered "File exists" 17
  | otherDevice => numbered "Invalid cross-device link" 18
  | notFolder => numbered "Not a directory" 20
  | isFolder => numbered "Is a directory" 21
  | nameTooLong => numbered "File name too long" 36
  | linkLoop => numbered "Too many levels of symbolic links" 40
  | zeroByte => "file name contained an unexpected NUL byte"
  | zeroByteInArguments => "nul byte found in provided data"
  | notText => "stream did not contain valid UTF-8"
  | other words code => numbered words code

/-- The fault with a number of the operating system. -/
def ofCode (code : Nat) (words : String) : Fault :=
  match code with
  | 1 => notPermitted
  | 2 => notFound
  | 13 => denied
  | 17 => occupied
  | 18 => otherDevice
  | 20 => notFolder
  | 21 => isFolder
  | 36 => nameTooLong
  | 40 => linkLoop
  | _ => other words code

end Fault

end Spacing
