import ScriptWorkbench.Run.Basic

/-!
# What can be seen of a run

A schedule says who acts when.  The observations of this file say what each step shows: the bytes
that were written to a stream, the bytes that its reader took, the events that were sent and
those that were taken, and the signals that kills sent.  Along a schedule they add up to the
histories that statements about runs compare.
-/

set_option autoImplicit false

namespace ScriptWorkbench

/-- The text of a line on one stream. -/
def Event.lineOn? (s : Stream) : Event → Option Text
  | .line t text => if t = s then some text else none
  | .exited _ => none

namespace Run

/-- The bytes that a step writes to a stream. -/
def written (s : Stream) (_ : Run) : Step → Bytes
  | .write t bytes => if t = s then bytes else []
  | _ => []

/-- The bytes that the reader of a stream takes in a step. -/
def consumed (s : Stream) (r : Run) : Step → Bytes
  | .read t n => if t = s then (r.feed s).unread.take n else []
  | _ => []

/-- The events that a step sends, whether anyone listens or not. -/
def sent (r : Run) : Step → List Event
  | .send s => ((r.feed s).outbox.take 1).map (.line s)
  | .report =>
    match r.waiter with
    | .reporting code => [.exited code]
    | _ => []
  | _ => []

/-- The events that are taken in a step. -/
def taken (r : Run) : Step → List Event
  | .take => r.queue.take 1
  | _ => []

/-- The signals that a step sends, by the answers of the system. -/
def signals (r : Run) : Step → List SignalReply
  | .kill reply => if r.killSignals then [reply] else []
  | _ => []

/-- What an observation shows along a schedule. -/
abbrev history {α : Type} (r : Run) (see : Run → Step → List α) (steps : List Step) : List α :=
  Schedule.along step? see r steps

end Run

end ScriptWorkbench
