import ScriptWorkbench.Run.Interpreter
import ScriptWorkbench.Session.Ledger

/-!
# The workbench

A workbench runs scripts one at a time.  A new run supersedes the one in progress: that one is
killed, as far as the system lets it be, and whatever it still says is passed over.  For every
started run a pump carries events from the run to the ledger.

`Workbench.step?` lists what the user, the waiting callers, the pumps and the runs can do, in any
order.  `Workbench.settle` lets happen what happens by itself, and `Workbench.command` gives the
interpreter of the run in progress a command and settles.
-/

set_option autoImplicit false

namespace ScriptWorkbench

/-- A caller that waits for a session to end. -/
structure Caller where
  id : SessionId
  /-- How often the bell had rung when the caller last looked. -/
  heard : Nat
  /-- What the caller got, once it did: the session, or nothing if it was superseded. -/
  answer : Option (Option Session)
deriving DecidableEq, Repr

/-- What the system may deny a run whose script is written and whose interpreter is there. -/
inductive Hitch
  | pipe (stream : Stream)
  /-- A thread of the run. -/
  | thread (name : Text) (fault : Host.Fault)
  /-- The pump that would carry the events of the run. -/
  | pump (fault : Host.Fault)
deriving DecidableEq, Repr

namespace Hitch

/-- What a hitch makes of a session. -/
def failure : Hitch → Failure
  | .pipe s => .launch (.missingPipe s)
  | .thread name fault => .launch (.thread name fault)
  | .pump fault => .pump fault

/-- How a launch comes out that may come upon a hitch. -/
def start (launched : Launched) (hitch : Option Hitch) : Except Failure Unit :=
  match launched, hitch with
  | .error e, _ => .error (.launch e)
  | .ok _, some h => .error h.failure
  | .ok _, none => .ok ()

end Hitch

/-- A run that was started and is killed at once because nothing takes its events. -/
def Run.abandoned (reply : SignalReply) : Run :=
  ({ listening := false } : Run).kill reply

/-- A place to run scripts. -/
structure Workbench where
  machine : Machine
  plan : Plan
  /-- What the system says to a signal. -/
  signals : SignalReply := .delivered
  ledger : Ledger := {}
  /-- The runs that were started, by number. -/
  runs : List (SessionId × Run) := []
  callers : List Caller := []

namespace Workbench

/-- A workbench before its first run. -/
def new (machine : Machine) (plan : Plan) : Workbench :=
  { machine, plan }

/-- The run of a number, if it was started. -/
def run? (w : Workbench) (id : SessionId) : Option Run :=
  w.runs.lookup id

/-- Changes the run of a number. -/
def modifyRun (w : Workbench) (id : SessionId) (f : Run → Run) : Workbench :=
  { w with runs := w.runs.map fun r => if r.1 = id then (id, f r.2) else r }

/-- Kills the run that the ledger names.  A signal that the system refuses is passed over. -/
def killCurrent (w : Workbench) : Workbench :=
  match w.ledger.killer with
  | none => w
  | some id => w.modifyRun id fun r => r.kill w.signals

/-- Enters a run whose launch has come out in one way or another.  The answer is the number of the
run, whether it could be started or not. -/
def enroll (w : Workbench) (script : Text) (hitch : Option Hitch) (launch : Machine × Launched) :
    SessionId × Workbench :=
  let started := Hitch.start launch.2 hitch
  let ledger := w.ledger.enter script started
  let runs := match started with
    | .ok _ => w.runs ++ [(ledger.issued, {})]
    | .error (.pump _) => w.runs ++ [(ledger.issued, .abandoned w.signals)]
    | .error (.launch _) => w.runs
  (ledger.issued, { w with machine := launch.1, ledger, runs })

/-- Runs a script, superseding a run in progress, and answers with the number of the run.  All of it
happens in one step: the kill, the launch, and the entry into the ledger. -/
def submit (w : Workbench) (script : Text) (hitch : Option Hitch := none) :
    SessionId × Workbench :=
  let w := w.killCurrent
  w.enroll script hitch (w.machine.launch w.plan script)

/-- The workbench after a script was run. -/
def run (w : Workbench) (script : Text) (hitch : Option Hitch := none) : Workbench :=
  (w.submit script hitch).2

/-- Kills the run in progress.  Its session ends when the run reports. -/
def cancel (w : Workbench) : Workbench :=
  w.killCurrent

/-- Gives the workbench up: the run in progress is killed and cannot be cancelled any more. -/
def dismiss (w : Workbench) : Workbench :=
  let w := w.killCurrent
  { w with ledger := { w.ledger with killer := none } }

/-- Carries the next event of a run to the ledger, if there is one. -/
def pump? (w : Workbench) (id : SessionId) : Option Workbench :=
  match w.run? id with
  | none => none
  | some r =>
    match r.queue with
    | [] => none
    | e :: es =>
      let w := w.modifyRun id fun r => { r with queue := es }
      some { w with ledger := (w.ledger.apply id (.ofEvent e)).1 }

/-- What a caller finds when it looks. -/
def look (l : Ledger) (c : Caller) : Caller :=
  if l.isPending c.id then { c with heard := l.bell }
  else { c with answer := some (l.finished? c.id) }

/-- Lets a caller begin to wait for a session. -/
def await (w : Workbench) (id : SessionId) : Workbench :=
  { w with callers := w.callers ++ [look w.ledger ⟨id, 0, none⟩] }

/-- What can happen next on a workbench. -/
inductive Step
  /-- The user runs a script. -/
  | run (script : Text) (hitch : Option Hitch)
  /-- The user cancels the run in progress. -/
  | cancel
  | subscribe
  | unsubscribe (subscriber : Nat)
  /-- A subscriber looks at what it has received. -/
  | empty (subscriber : Nat)
  /-- A caller begins to wait for a session. -/
  | await (id : SessionId)
  /-- A waiting caller looks again because the bell has rung. -/
  | look (caller : Nat)
  /-- The pump of a run carries its next event to the ledger. -/
  | pump (id : SessionId)
  /-- Something happens inside a run. -/
  | inside (id : SessionId) (step : Run.Step)
  /-- Something else changes the files of the machine. -/
  | meddle (machine : Machine)
  /-- The system changes its mind about signals. -/
  | permit (reply : SignalReply)

/-- What a step makes of a workbench, if it is possible.  Only the pump of a run takes its events,
and only the ledger decides which run is killed. -/
def step? (w : Workbench) : Step → Option Workbench
  | .run script hitch => some (w.run script hitch)
  | .cancel => some w.cancel
  | .subscribe => some { w with ledger := w.ledger.subscribe }
  | .unsubscribe i => some { w with ledger := w.ledger.unsubscribe i }
  | .empty i => some { w with ledger := w.ledger.empty i }
  | .await id => some (w.await id)
  | .look i =>
    match w.callers[i]? with
    | none => none
    | some c =>
      if c.answer = none ∧ c.heard ≠ w.ledger.bell then
        some { w with callers := w.callers.set i (look w.ledger c) }
      else none
  | .pump id => w.pump? id
  | .inside _ (.kill _) => none
  | .inside _ .take => none
  | .inside _ .hangUp => none
  | .inside id s =>
    ((w.run? id).bind fun r => r.step? s).map fun r => w.modifyRun id fun _ => r
  | .meddle machine => some { w with machine }
  | .permit reply => some { w with signals := reply }

/-- What a row of steps makes of a workbench, if each of them is possible in its turn. -/
abbrev steps? (w : Workbench) (steps : List Step) : Option Workbench :=
  Schedule.after? step? w steps

/-- Carries every event of a run to the ledger, `fuel` of them at most. -/
def pumpAll (id : SessionId) : Nat → Workbench → Workbench
  | 0, w => w
  | fuel + 1, w =>
    match w.pump? id with
    | none => w
    | some w => pumpAll id fuel w

/-- Lets a run settle and carries its events to the ledger. -/
def settleRun (w : Workbench) (id : SessionId) : Workbench :=
  let w := w.modifyRun id Run.settle
  pumpAll id ((w.run? id).map (·.queue.length) |>.getD 0) w

/-- Lets every run settle, the oldest first. -/
def settle (w : Workbench) : Workbench :=
  (w.runs.map Prod.fst).foldl settleRun w

/-- The run in progress, if there is one that has not been reported as over. -/
def current? (w : Workbench) : Option (SessionId × Run) :=
  match w.ledger.session with
  | none => none
  | some s => ((w.run? s.id).filter fun r => !r.isOver).map fun r => (s.id, r)

/-- Gives a command to the interpreter of the run in progress and lets everything settle. -/
def command (w : Workbench) (c : Command) : Option (Except Refusal Workbench) :=
  w.current?.map fun (id, r) => (r.obey c).map fun r => (w.modifyRun id fun _ => r).settleRun id

end Workbench

end ScriptWorkbench
