import ScriptWorkbench.Run.History
import ScriptWorkbench.Session.Workbench

/-!
# What can be seen of a workbench

Each observation of this file says what one step of a workbench shows: the script of a run that
begins, the events that a run sends and those that its pump takes, the runs that are started and
those that are killed, the updates that are announced, and what a subscriber finds when it looks.
`announced` is said from the step alone and does not look at any inbox; what a subscriber has
received is a part of it.

An update log can be replayed: `Update.entryOf?` and `Update.stateOf?` pick out what it says about
one session.
-/

set_option autoImplicit false

namespace ScriptWorkbench

namespace Update

/-- The entry that an update adds to a session. -/
def entryOf? (id : SessionId) : Update → Option Entry
  | .output source entry => if source = id then some entry else none
  | .state _ _ => none

/-- The state that an update puts a session into. -/
def stateOf? (id : SessionId) : Update → Option SessionState
  | .state source s => if source = id then some s else none
  | .output _ _ => none

/-- The session that an update is about. -/
def id : Update → SessionId
  | .state i _ => i
  | .output i _ => i

/-- The update that a notice of a running session brings. -/
def ofNotice (id : SessionId) : Notice → Update
  | .output entry => .output id entry
  | .exited code => .state id (.completed code)

end Update

namespace Workbench

/-- How a run of a script comes out. -/
def started (w : Workbench) (script : Text) (hitch : Option Hitch) : Except Failure Unit :=
  Hitch.start (w.machine.launch w.plan script).2 hitch

/-- The script of a run that begins, with the number that the one who began it is told. -/
def begun (w : Workbench) : Step → List (SessionId × Text)
  | .run script hitch => [((w.submit script hitch).1, script)]
  | _ => []

/-- The events of a run that its pump takes in a step. -/
def pumped (id : SessionId) (w : Workbench) : Step → List Event
  | .pump i => if i = id then ((w.run? id).map fun r => r.queue.take 1).getD [] else []
  | _ => []

/-- The events that a run sends in a step. -/
def said (id : SessionId) (w : Workbench) : Step → List Event
  | .inside i x => if i = id then ((w.run? id).map fun r => r.sent x).getD [] else []
  | _ => []

/-- The runs that a step kills: the one in progress, and one that was started without a pump. -/
def killed (w : Workbench) : Step → List SessionId
  | .run script hitch =>
    w.ledger.killer.toList ++
      match w.started script hitch with
      | .error (.pump _) => [w.ledger.issued + 1]
      | _ => []
  | .cancel => w.ledger.killer.toList
  | _ => []

/-- The run that a step starts, also if no pump can be started for it. -/
def spawned (w : Workbench) : Step → List SessionId
  | .run script hitch =>
    match w.started script hitch with
    | .error (.launch _) => []
    | _ => [w.ledger.issued + 1]
  | _ => []

/-- The updates that a step announces: the beginning of a run, its failure if it cannot be
started, and every event that is taken while its session is the current one and running. -/
def announced (w : Workbench) : Step → List Update
  | .run script hitch =>
    let id := w.ledger.issued + 1
    .state id .running ::
      match w.started script hitch with
      | .ok _ => []
      | .error cause => [.state id (.failed cause)]
  | .pump id =>
    if w.ledger.isPending id then
      (w.pumped id (.pump id)).map fun e => Update.ofNotice id (.ofEvent e)
    else []
  | _ => []

/-- What a subscriber finds when it looks. -/
def received (subscriber : Nat) (w : Workbench) : Step → List Update
  | .empty i => if i = subscriber then (w.ledger.inbox? i).getD [] else []
  | _ => []

/-- What an observation shows along a schedule. -/
abbrev history {α : Type} (w : Workbench) (see : Workbench → Step → List α) (steps : List Step) :
    List α :=
  Schedule.along step? see w steps

end Workbench

end ScriptWorkbench
