import ScriptWorkbench.Run.Basic
import ScriptWorkbench.Run.Launch

/-!
# The ledger of runs

A ledger keeps the session of the current run, tells its subscribers about every change, and
remembers the exit code of the last run that completed.  Each run has a number; a notice that
bears another number than that of the current session, or that comes after the session has ended,
changes nothing (`apply_eq_self`).

Callers can wait for a session to end.  `bell` counts how often they were told to look again.
-/

set_option autoImplicit false

namespace ScriptWorkbench

/-- The number of a run.  The first run has the number one. -/
abbrev SessionId := Nat

/-- Why a session failed. -/
inductive Failure
  /-- The run could not be started. -/
  | launch (error : LaunchError)
  /-- The run was started, but not the pump that would carry its events. -/
  | pump (fault : Host.Fault)
deriving DecidableEq, Repr

/-- A failure in words. -/
def Failure.message : Failure → Text
  | .launch error => error.message
  | .pump fault => "cannot start output pump: ".toList ++ fault.message

/-- How far a run is. -/
inductive SessionState
  | running
  /-- The interpreter exited; there is no code if it was killed. -/
  | completed (code : Option ExitCode)
  /-- The run never came to say anything. -/
  | failed (cause : Failure)
deriving DecidableEq, Repr

/-- Whether a run is over, well or not. -/
def SessionState.isFinished : SessionState → Bool
  | .running => false
  | .completed _ => true
  | .failed _ => true

/-- One run of a script. -/
structure Session where
  id : SessionId
  /-- The script as it was when the run began. -/
  script : Text
  state : SessionState
  output : List Entry
deriving DecidableEq, Repr

/-- The findings of a session, in the order of its output. -/
def Session.findings (s : Session) : List Finding :=
  s.output.filterMap Entry.finding?

/-- What subscribers are told. -/
inductive Update
  | state (id : SessionId) (state : SessionState)
  | output (id : SessionId) (entry : Entry)
deriving DecidableEq, Repr

/-- What a run tells the ledger. -/
inductive Notice
  | output (entry : Entry)
  | exited (code : Option ExitCode)
deriving DecidableEq, Repr

/-- The notice of an event: lines become entries. -/
def Notice.ofEvent : Event → Notice
  | .line s text => .output (Entry.ofLine s text)
  | .exited code => .exited code

/-- The ledger of runs. -/
structure Ledger where
  /-- The number of the last run. -/
  issued : Nat := 0
  /-- The current session. -/
  session : Option Session := none
  /-- The run that a cancellation kills. -/
  killer : Option SessionId := none
  /-- The exit code of the last run that completed. -/
  lastExit : Option ExitCode := none
  /-- What each subscriber has received and not looked at; nothing for one that is gone. -/
  inboxes : List (Option (List Update)) := []
  /-- How often waiting callers were told to look again. -/
  bell : Nat := 0
deriving DecidableEq, Repr

namespace Ledger

/-- Tells every subscriber. -/
def publish (l : Ledger) (u : Update) : Ledger :=
  { l with inboxes := l.inboxes.map fun inbox => inbox.map (· ++ [u]) }

/-- Tells waiting callers to look again. -/
def ring (l : Ledger) : Ledger :=
  { l with bell := l.bell + 1 }

/-- Puts the session of a number into a state and tells the subscribers. -/
def setState (l : Ledger) (id : SessionId) (state : SessionState) : Ledger :=
  let session := l.session.map fun (s : Session) => if s.id = id then { s with state } else s
  { l with session }.publish (.state id state)

/-- The current session, if it has the number and is running. -/
def running? (l : Ledger) (id : SessionId) : Option Session :=
  l.session.filter fun s => s.id = id && s.state = .running

/-- Takes in a notice of a run.  The answer says whether the notice was for the current session. -/
def apply (l : Ledger) (id : SessionId) (n : Notice) : Ledger × Bool :=
  match l.running? id with
  | none => (l, false)
  | some s =>
    match n with
    | .output entry =>
      let session := some { s with output := s.output ++ [entry] }
      ({ l with session }.publish (.output id entry), true)
    | .exited code =>
      (({ l with killer := none, lastExit := code }.setState id (.completed code)).ring, true)

/-- Makes the session of a new run, which takes the place of the current one. -/
def supersede (l : Ledger) (script : Text) : Ledger :=
  let id := l.issued + 1
  let session := some ⟨id, script, .running, []⟩
  ({ l with issued := id, killer := none, session }.publish (.state id .running)).ring

/-- Enters a new run that was started, or that could not be. -/
def enter (l : Ledger) (script : Text) (started : Except Failure Unit) : Ledger :=
  let l := l.supersede script
  match started with
  | .ok _ => { l with killer := some l.issued }
  | .error cause => (l.setState l.issued (.failed cause)).ring

/-- A new run takes the next number, whether it was started or not. -/
theorem issued_enter (l : Ledger) (script : Text) (started : Except Failure Unit) :
    (l.enter script started).issued = l.issued + 1 := by
  cases started <;> rfl

/-- Adds a subscriber, who receives every later update. -/
def subscribe (l : Ledger) : Ledger :=
  { l with inboxes := l.inboxes ++ [some []] }

/-- What a subscriber has received since it last looked. -/
def inbox? (l : Ledger) (subscriber : Nat) : Option (List Update) :=
  l.inboxes[subscriber]?.join

/-- Lets a subscriber look. -/
def empty (l : Ledger) (subscriber : Nat) : Ledger :=
  { l with inboxes := l.inboxes.modify subscriber fun inbox => inbox.map fun _ => [] }

/-- Lets a subscriber go. -/
def unsubscribe (l : Ledger) (subscriber : Nat) : Ledger :=
  { l with inboxes := l.inboxes.set subscriber none }

/-- Whether a caller that waits for a session has to wait on. -/
def isPending (l : Ledger) (id : SessionId) : Bool :=
  (l.running? id).isSome

/-- What a caller that waited for a session gets: the session if it is still the current one and
has ended. -/
def finished? (l : Ledger) (id : SessionId) : Option Session :=
  l.session.filter fun s => s.id = id && s.state.isFinished

/-- A notice that is not for the current session, or that comes after its end, changes nothing. -/
theorem apply_eq_self {l : Ledger} {id : SessionId} (h : l.running? id = none) (n : Notice) :
    l.apply id n = (l, false) := by
  simp [apply, h]

end Ledger

end ScriptWorkbench
