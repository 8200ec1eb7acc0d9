import ScriptWorkbench.CommandLine.Invocation

/-!
# The program

Reads the files that the arguments name, lets `CommandLine.respond` answer, and prints the outcome.
The program cannot start other programs: `run` writes the script and then reports that the system
does not offer what it needs.
-/

set_option autoImplicit false

namespace ScriptWorkbench.CommandLine

open Host

/-- The fault behind an error of the file system. -/
def faultOfError : IO.Error → Fault
  | .noFileOrDirectory _ _ _ => .missing
  | .noSuchThing _ _ _ => .missing
  | .permissionDenied _ _ _ => .denied
  | .alreadyExists _ _ _ => .exists
  | .inappropriateType _ code _ => (Fault.ofCode? code.toNat).getD .isDirectory
  | .invalidArgument _ code _ => (Fault.ofCode? code.toNat).getD .nulInPath
  | .resourceExhausted _ code _ => (Fault.ofCode? code.toNat).getD .noMemory
  | _ => .unsupported

/-- The text of a file. -/
def readFile (path : Text) : IO (Except Fault Text) := do
  if path = [] then return .error .missing
  if '\x00' ∈ path then return .error .nulInPath
  try
    let bytes ← IO.FS.readBinFile (String.ofList path)
    return match Utf8.decode? bytes.toList with
      | some text => .ok text
      | none => .error .notText
  catch e =>
    return .error (faultOfError e)

/-- Writes a script and makes the directories above it. -/
def writeScript (path script : Text) : IO (Except Fault Unit) := do
  if path = [] then return .error .missing
  if '\x00' ∈ path then return .error .nulInPath
  try
    match Path.parent? path with
    | some [] => pure ()
    | some parent => IO.FS.createDirAll (String.ofList parent)
    | none => pure ()
    IO.FS.writeFile (String.ofList path) (String.ofList script)
    return .ok ()
  catch e =>
    return .error (faultOfError e)

/-- Writes the script of a run.  The interpreter itself cannot be started. -/
def runOutcome (settings : Settings) (script : Text) : IO Outcome := do
  let plan := settings.plan
  match ← writeScript plan.scriptPath script with
  | .error fault => return Outcome.ofCause (.launch (.writeScript plan.scriptPath fault))
  | .ok _ => return Outcome.ofCause (.launch (.spawn plan.interpreter .unsupported))

/-- Reads every file that the arguments may name, then answers. -/
def outcomeOf (temporary : Text) (arguments : List Text) : IO Outcome := do
  let paths := match Invocation.ofArguments arguments with
    | .ok i => i.settings.toList ++ [i.file]
    | .error _ => []
  let texts ← paths.mapM fun path => do return (path, ← readFile path)
  let read (path : Text) : Except Fault Text := (texts.lookup path).getD (.error .missing)
  match respond read temporary arguments with
  | .error complaint => return complaint.outcome
  | .ok (.done outcome) => return outcome
  | .ok (.run settings script) => runOutcome settings script

end ScriptWorkbench.CommandLine

/-- Answers a command line. -/
def main (arguments : List String) : IO UInt32 := do
  let temporary := (← IO.getEnv "TMPDIR").getD "/tmp"
  let outcome ← ScriptWorkbench.CommandLine.outcomeOf temporary.toList (arguments.map String.toList)
  IO.print (String.ofList outcome.out)
  IO.eprint (String.ofList outcome.err)
  return UInt32.ofNat outcome.status
