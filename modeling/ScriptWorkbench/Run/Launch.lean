import ScriptWorkbench.Host.Machine
import ScriptWorkbench.Report.Entry
import ScriptWorkbench.Run.Plan

/-!
# Starting a run

A run starts by writing the script and then starting the interpreter on it.  A fault in either
step is the error of the launch; the script stays written if only the interpreter cannot start.
-/

set_option autoImplicit false

namespace ScriptWorkbench

open Host

/-- Why a run could not be started. -/
inductive LaunchError
  /-- The script could not be written. -/
  | writeScript (path : Text) (fault : Fault)
  /-- The interpreter could not be started. -/
  | spawn (program : Text) (fault : Fault)
  /-- The interpreter started without a pipe for a stream. -/
  | missingPipe (stream : Stream)
  /-- A thread of a run could not be started. -/
  | thread (name : Text) (fault : Fault)
deriving DecidableEq, Repr

/-- A launch error in words. -/
def LaunchError.message : LaunchError → Text
  | .writeScript path fault =>
    "cannot write script to ".toList ++ path ++ ": ".toList ++ fault.message
  | .spawn program fault => "cannot start ".toList ++ program ++ ": ".toList ++ fault.message
  | .missingPipe stream => "interpreter has no ".toList ++ stream.name ++ " pipe".toList
  | .thread name fault =>
    "cannot start ".toList ++ name ++ " thread: ".toList ++ fault.message

/-- How a launch went. -/
abbrev Launched := Except LaunchError Unit

/-- Writes the script and starts the interpreter. -/
def Machine.launch (m : Machine) (p : Plan) (script : Text) : Machine × Launched :=
  match m.writeScript p.scriptPath script with
  | (m, some f) => (m, .error (.writeScript p.scriptPath f))
  | (m, none) =>
    match m.start p.interpreter p.arguments with
    | .ok _ => (m, .ok ())
    | .error f => (m, .error (.spawn p.interpreter f))

end ScriptWorkbench
