import ScriptWorkbench.Text.Basic

/-!
# Faults of the operating system

What can go wrong when a file is read or written or a program is started, and the words for it.
Most faults carry the number by which the system knows them.
-/

set_option autoImplicit false

namespace ScriptWorkbench.Host

/-- Why the operating system refuses a request. -/
inductive Fault
  | missing
  | argumentTooLong
  | tryAgain
  | noMemory
  | denied
  | exists
  | notDirectory
  | isDirectory
  | nameTooLong
  /-- The system has no such service. -/
  | unsupported
  /-- A file that should be text is not UTF-8. -/
  | notText
  /-- A path with a NUL character. -/
  | nulInPath
  /-- A program name or argument with a NUL character. -/
  | nulInArgument
deriving DecidableEq, Repr

namespace Fault

/-- Every fault that has a number. -/
def numbered : List Fault :=
  [.missing, .argumentTooLong, .tryAgain, .noMemory, .denied, .exists, .notDirectory, .isDirectory,
    .nameTooLong, .unsupported]

/-- The number of a fault. -/
def code? : Fault → Option Nat
  | .missing => some 2
  | .argumentTooLong => some 7
  | .tryAgain => some 11
  | .noMemory => some 12
  | .denied => some 13
  | .exists => some 17
  | .notDirectory => some 20
  | .isDirectory => some 21
  | .nameTooLong => some 36
  | .unsupported => some 38
  | .notText => none
  | .nulInPath => none
  | .nulInArgument => none

/-- The fault of a number. -/
def ofCode? (n : Nat) : Option Fault :=
  numbered.find? fun f => f.code? = some n

/-- A fault in words, without its number. -/
def words : Fault → Text
  | .missing => "No such file or directory".toList
  | .argumentTooLong => "Argument list too long".toList
  | .tryAgain => "Resource temporarily unavailable".toList
  | .noMemory => "Cannot allocate memory".toList
  | .denied => "Permission denied".toList
  | .exists => "File exists".toList
  | .notDirectory => "Not a directory".toList
  | .isDirectory => "Is a directory".toList
  | .nameTooLong => "File name too long".toList
  | .unsupported => "Function not implemented".toList
  | .notText => "stream did not contain valid UTF-8".toList
  | .nulInPath => "file name contained an unexpected NUL byte".toList
  | .nulInArgument => "nul byte found in provided data".toList

/-- A fault in words, with its number if it has one. -/
def message (f : Fault) : Text :=
  match f.code? with
  | some n => f.words ++ " (os error ".toList ++ Text.decimal n ++ ")".toList
  | none => f.words

end Fault

end ScriptWorkbench.Host
