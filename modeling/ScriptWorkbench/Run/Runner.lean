import ScriptWorkbench.Run.Interpreter
import ScriptWorkbench.Run.Launch

/-!
# Many runs of one plan

A runner starts any number of runs on one machine.  Each run has its own events and can be killed
on its own.
-/

set_option autoImplicit false

namespace ScriptWorkbench

/-- A machine, a plan, and the runs that were started, in order. -/
structure Runner where
  machine : Machine
  plan : Plan
  runs : List Run := []

namespace Runner

/-- Starts a run, which then is the last one, or says why it cannot start. -/
def start (r : Runner) (script : Text) : Runner × Launched :=
  let (machine, launched) := r.machine.launch r.plan script
  match launched with
  | .ok _ => ({ r with machine, runs := r.runs ++ [{}] }, launched)
  | .error _ => ({ r with machine }, launched)

/-- Replaces a run and takes its events. -/
def advance (r : Runner) (index : Nat) (run : Run) : List Event × Runner :=
  let (events, run) := run.takeAll
  (events, { r with runs := r.runs.set index run })

end Runner

end ScriptWorkbench
