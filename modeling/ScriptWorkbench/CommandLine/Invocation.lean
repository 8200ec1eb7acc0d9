import ScriptWorkbench.CommandLine.Report
import ScriptWorkbench.CommandLine.TokenList
import ScriptWorkbench.Settings.Load

/-!
# The command line

A command works on one file: it shows it in color, lists its tokens, finds a place in it, or runs
it.  `respond` answers every command but `run`, for which it hands back the script and the settings
to run it with.  Files are read in a fixed order, the settings first, and the first fault counts.
-/

set_option autoImplicit false

namespace ScriptWorkbench.CommandLine

open Host

/-- What a command line asks for. -/
structure Invocation where
  /-- The settings file, if one is named. -/
  settings : Option Text
  command : Text
  file : Text
  /-- The arguments after the file. -/
  arguments : List Text
deriving DecidableEq, Repr

/-- Why a command is not carried out. -/
inductive Complaint
  /-- `--config` is the last argument. -/
  | noSettingsFile
  /-- The arguments are not understood, or help was asked for. -/
  | usage
  | settings (error : SettingsError)
  /-- The file could not be read. -/
  | unreadable (path : Text) (fault : Fault)
  | unknownCommand (command : Text)
deriving DecidableEq, Repr

/-- The summary of the commands. -/
def usageText : Text :=
  ("Usage: scriptpad [--config FILE] <command> <file> [args...]\n" ++
    "\n" ++
    "Commands:\n" ++
    "  highlight FILE          Print FILE with syntax colors\n" ++
    "  tokens FILE             Print one token per line\n" ++
    "  run FILE                Run FILE and print its annotated output\n" ++
    "  locate FILE LINE COL    Print the clamped byte offset\n" ++
    "\n" ++
    "Examples:\n" ++
    "  scriptpad highlight script.kts\n" ++
    "  scriptpad --config scriptpad.json run script.kts\n" ++
    "  scriptpad locate script.kts 3 5\n").toList

/-- How a complaint ends the command. -/
def Complaint.outcome : Complaint → Outcome
  | .noSettingsFile => ⟨2, [], "Error: --config needs a file\n".toList⟩
  | .usage => ⟨2, [], usageText⟩
  | .settings error => ⟨2, [], "Error: ".toList ++ error.message ++ ['\n']⟩
  | .unreadable path fault => ⟨1, [], path ++ ": ".toList ++ fault.message ++ ['\n']⟩
  | .unknownCommand command => ⟨2, [], "Unknown command: ".toList ++ command ++ ['\n']⟩

/-- Takes the first `--config` out of the arguments, with the argument after it. -/
def takeSettings : List Text → Except Complaint (Option Text × List Text)
  | [] => .ok (none, [])
  | a :: rest =>
    if a = "--config".toList then
      match rest with
      | [] => .error .noSettingsFile
      | path :: rest => .ok (some path, rest)
    else (takeSettings rest).map fun (path, rest) => (path, a :: rest)

/-- Reads the arguments. -/
def Invocation.ofArguments (arguments : List Text) : Except Complaint Invocation := do
  let (settings, rest) ← takeSettings arguments
  match rest with
  | command :: file :: rest =>
    if command = "--help".toList ∨ command = "-h".toList then .error .usage
    else .ok ⟨settings, command, file, rest⟩
  | _ => .error .usage

/-- The greatest number that an argument can be. -/
def maxArgument : Nat := Nat.pow 2 64 - 1

/-- A number as it is written on a command line: digits, possibly after a plus sign. -/
def natural? (t : Text) : Option Nat :=
  let digits := match t with
    | '+' :: t => t
    | t => t
  if digits ≠ [] ∧ digits.all Char.isDigit ∧ Text.digitsValue digits ≤ maxArgument then
    some (Text.digitsValue digits)
  else none

/-- The byte offset of the place that two arguments name. -/
def locate? (source : Text) : List Text → Option Nat
  | [line, column] => do
    let line ← natural? line
    let column ← natural? column
    return source.nearestOffset ⟨line, column⟩
  | _ => none

/-- What becomes of a command. -/
inductive Response
  /-- It is done. -/
  | done (outcome : Outcome)
  /-- The script has to be run. -/
  | run (settings : Settings) (script : Text)
deriving DecidableEq, Repr

/-- Carries out a command on the text of its file. -/
def perform (settings : Settings) (i : Invocation) (source : Text) : Except Complaint Response :=
  if i.command = "highlight".toList then .ok (.done ⟨0, settings.scheme.render source, []⟩)
  else if i.command = "tokens".toList then .ok (.done ⟨0, tokenList settings.scheme source, []⟩)
  else if i.command = "run".toList then .ok (.run settings source)
  else if i.command = "locate".toList then
    match locate? source i.arguments with
    | some n => .ok (.done ⟨0, Text.decimal n ++ ['\n'], []⟩)
    | none => .error .usage
  else .error (.unknownCommand i.command)

/-- Carries out what the arguments ask for.  `read` answers with the text of a file. -/
def respond (read : Text → Except Fault Text) (temporary : Text) (arguments : List Text) :
    Except Complaint Response := do
  let i ← Invocation.ofArguments arguments
  let settings ← (Settings.load read temporary i.settings).mapError .settings
  let source ← (read i.file).mapError (.unreadable i.file)
  perform settings i source

/-- Once everything is read, only the command counts. -/
theorem respond_eq_perform {read : Text → Except Fault Text} {temporary : Text}
    {arguments : List Text} {i : Invocation} {settings : Settings} {source : Text}
    (hask : Invocation.ofArguments arguments = .ok i)
    (hload : Settings.load read temporary i.settings = .ok settings)
    (hread : read i.file = .ok source) :
    respond read temporary arguments = perform settings i source := by
  unfold respond
  rw [hask]
  simp only [bind, Except.bind, hload, hread]
  rfl

end ScriptWorkbench.CommandLine
