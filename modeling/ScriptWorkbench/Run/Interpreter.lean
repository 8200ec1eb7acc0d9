import ScriptWorkbench.Run.Drive

/-!
# An interpreter that obeys commands

Commands tell an interpreter what to do next.  It refuses what a process cannot do: anything once it
has ended, and using a stream that it has closed.
-/

set_option autoImplicit false

namespace ScriptWorkbench

/-- What an interpreter is told to do. -/
inductive Command
  | write (stream : Stream) (bytes : Bytes)
  | close (stream : Stream)
  /-- Start a process that inherits both streams and never ends by itself. -/
  | hold
  /-- End with a code; the system keeps its last eight bits. -/
  | exit (code : Int)
  /-- Die of a signal. -/
  | signal (number : Nat)
deriving DecidableEq, Repr

/-- Why an interpreter refuses a command. -/
inductive Refusal
  /-- The run is over. -/
  | over
  /-- The interpreter has ended. -/
  | dead
  /-- The stream is closed, or the streams cannot be inherited any more. -/
  | closed
deriving DecidableEq, Repr

namespace Command

/-- The code that the system keeps of an exit code. -/
def keptCode (code : Int) : ExitCode :=
  (code % 256).toNat

/-- A code that is kept is not negative and has eight bits. -/
theorem keptCode_lt (code : Int) : keptCode code < 256 := by
  have hrest : (code % 256).toNat < 256 := by omega
  exact hrest

/-- The steps of a run that carry a command out. -/
def toSteps : Command → List Run.Step
  | .write s bytes => [.write s bytes]
  | .close s => [.close s]
  | .hold => [.bequeath .stdout, .bequeath .stderr]
  | .exit code => [.finish (.exited (keptCode code))]
  | .signal n => [.finish (.signalled n)]

/-- Whether an interpreter that is alive can obey. -/
def isPossible (r : Run) : Command → Bool
  | .write s _ => (r.feed s).held
  | .close s => (r.feed s).held
  | .hold => r.stdout.held && r.stderr.held && !r.stdout.lent && !r.stderr.lent
  | .exit _ => true
  | .signal _ => true

end Command

namespace Run

/-- Carries a command out and lets everything settle that it causes. -/
def obey (r : Run) (c : Command) : Except Refusal Run :=
  if r.isOver then .error .over
  else if r.status.isSome then .error .dead
  else if c.isPossible r then .ok ((r.steps? c.toSteps).getD r).settle
  else .error .closed

/-- Kills the run and lets everything settle that this causes. -/
def killAndSettle (r : Run) : Run :=
  (r.kill .delivered).settle

end Run

end ScriptWorkbench
