import ScriptWorkbench.CommandLine.Invocation
import ScriptWorkbench.Session.Workbench

/-!
# Commands that run scripts

A run on the command line is a workbench with one subscriber, which prints what it receives.  Here
the interpreter is one that obeys commands, so the whole command has an outcome.
-/

set_option autoImplicit false

namespace ScriptWorkbench.CommandLine

open Host

/-- A workbench with its first subscriber, before the first run. -/
def freshWorkbench (m : Machine) (p : Plan) : Workbench :=
  { Workbench.new m p with ledger := Ledger.subscribe {} }

/-- Gives commands to the interpreter one after the other.  Commands that it refuses are passed
over. -/
def obeyAll (w : Workbench) (commands : List Command) : Workbench :=
  commands.foldl (fun w c => ((w.command c).bind Except.toOption).getD w) w

/-- What the first subscriber of a workbench has received about a run, in print. -/
def printed (p : Palette) (id : SessionId) (w : Workbench) : Outcome :=
  Outcome.ofUpdates p id ((w.ledger.inbox? 0).getD [])

/-- Runs a script with an interpreter that obeys the commands of the script. -/
def runScript (m : Machine) (s : Settings) (script : Text) (commands : List Command) : Outcome :=
  let (id, w) := (freshWorkbench m s.plan).submit script
  printed s.scheme.palette id (obeyAll w.settle commands)

/-- Carries out a command line on a machine whose interpreter takes its commands from the script. -/
def execute (m : Machine) (obey : Text → List Command) (arguments : List Text) :
    Except Complaint Outcome := do
  match ← respond m.readText m.temporary arguments with
  | .done outcome => return outcome
  | .run settings script => return runScript m settings script (obey script)

end ScriptWorkbench.CommandLine
