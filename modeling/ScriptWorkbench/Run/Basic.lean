import ScriptWorkbench.Report.Entry
import ScriptWorkbench.Schedule
import ScriptWorkbench.Text.Lines

/-!
# A run in progress

A started run has five parties that act independently: the interpreter with the processes it
started, a reader for each output stream, a waiter that reports how the interpreter ended, and
whoever kills the run or takes its events.  `Step` lists what each of them can do next and
`Run.step?` what comes of it; a schedule of a run is a row of such steps.

* A stream stays open as long as the interpreter has not closed it or a process that inherited it
  holds it.  Once it is closed it never opens again.
* A reader takes bytes in chunks of any size, sends the lines that each chunk completes one by one,
  and sends the unterminated rest once the stream has ended or cannot be read.
* The waiter begins when both readers are done.  It looks for the exit status until it is there
  and then reports it.  The report is the last event of a run.
* A kill ends every process of the run, unless the exit status has been collected: from then on the
  process number may belong to another process.
-/

set_option autoImplicit false

namespace ScriptWorkbench

/-- The code that a process exits with.  The system keeps the last eight bits of the number that the
process gives, so a code is not negative. -/
abbrev ExitCode := Nat

/-- What the one who started a run is told. -/
inductive Event
  /-- A complete line on a stream. -/
  | line (stream : Stream) (text : Text)
  /-- The run is over.  There is no code if the interpreter was killed or its status is unknown. -/
  | exited (code : Option ExitCode)
deriving DecidableEq, Repr

/-- How a process ended. -/
inductive Status
  | exited (code : ExitCode)
  | signalled (signal : Nat)
deriving DecidableEq, Repr

/-- The exit code, unless a signal ended the process. -/
def Status.code? : Status → Option ExitCode
  | .exited code => some code
  | .signalled _ => none

/-- The signal that kills. -/
def Status.killed : Status := .signalled 9

/-- What the system says to a signal for all processes of a run. -/
inductive SignalReply
  | delivered
  /-- None of them is there any more, which is as good as killing them. -/
  | gone
  | refused
deriving DecidableEq, Repr

/-- What comes of asking a run for its next event. -/
inductive Receipt
  | event (e : Event)
  /-- No event has been sent that was not taken. -/
  | nothingYet
  /-- The last event of the run has been taken. -/
  | over
  /-- Nobody listens to the run any more. -/
  | deaf
deriving DecidableEq, Repr

/-- One stream from the interpreter to its reader. -/
structure Feed where
  /-- Bytes that were written and not read. -/
  unread : Bytes := []
  /-- Whether the interpreter still holds its end. -/
  held : Bool := true
  /-- Whether a process that inherited it from the interpreter still holds it. -/
  lent : Bool := false
  /-- The open line of the reader. -/
  splitter : Splitter := Splitter.empty
  /-- Lines that the reader has yet to send. -/
  outbox : List Text := []
  /-- Whether the reader has come to the end of the stream. -/
  ended : Bool := false
deriving DecidableEq, Repr

namespace Feed

/-- The greatest number of bytes that are read at once. -/
def chunkLimit : Nat := 8192

/-- Whether a process holds the writing end. -/
def isOpen (f : Feed) : Bool :=
  f.held || f.lent

/-- Whether the reader is between two reads. -/
def isReading (f : Feed) : Bool :=
  !f.ended && f.outbox.isEmpty

/-- Whether the reader is done. -/
def isDone (f : Feed) : Bool :=
  f.ended && f.outbox.isEmpty

/-- Reads a chunk of `n` bytes. -/
def read (f : Feed) (n : Nat) : Feed :=
  let (lines, splitter) := f.splitter.push (f.unread.take n)
  { f with unread := f.unread.drop n, splitter, outbox := lines }

/-- Comes to the end of the stream. -/
def finish (f : Feed) : Feed :=
  let (tail, splitter) := f.splitter.finish
  { f with splitter, outbox := tail.toList, ended := true }

/-- Loses every process that holds the writing end. -/
def shut (f : Feed) : Feed :=
  { f with held := false, lent := false }

end Feed

/-- What the waiter is doing. -/
inductive Waiter
  /-- Waiting for both readers. -/
  | joining
  /-- Looking for the exit status. -/
  | polling
  /-- About to report. -/
  | reporting (code : Option ExitCode)
  | done
deriving DecidableEq, Repr

/-- A started run. -/
structure Run where
  stdout : Feed := {}
  stderr : Feed := {}
  /-- How the interpreter ended, once it has. -/
  status : Option Status := none
  /-- Whether the exit status has been collected, or looking for it has failed. -/
  collected : Bool := false
  waiter : Waiter := .joining
  /-- Whether anyone can still take events. -/
  listening : Bool := true
  /-- Events that were sent and not taken. -/
  queue : List Event := []
deriving DecidableEq, Repr

namespace Run

/-- The two ends of a stream. -/
def feed (r : Run) : Stream → Feed
  | .stdout => r.stdout
  | .stderr => r.stderr

/-- Replaces a stream. -/
def setFeed (r : Run) (s : Stream) (f : Feed) : Run :=
  match s with
  | .stdout => { r with stdout := f }
  | .stderr => { r with stderr := f }

/-- Sends an event to whoever listens. -/
def send (r : Run) (e : Event) : Run :=
  if r.listening then { r with queue := r.queue ++ [e] } else r

/-- Whether a process holds the writing end of a stream. -/
def isOpen (r : Run) (s : Stream) : Bool :=
  (r.feed s).isOpen

/-- Whether the run has been reported as over. -/
def isOver (r : Run) : Bool :=
  r.waiter = .done

/-- Lets the interpreter go from both streams. -/
def letGo (r : Run) : Run :=
  { r with stdout := { r.stdout with held := false }, stderr := { r.stderr with held := false } }

/-- Whether a kill sends a signal: not once the exit status has been collected. -/
def killSignals (r : Run) : Bool :=
  !r.collected

/-- Whether a kill succeeds when the system would answer its signal like this. -/
def killSucceeds (r : Run) (reply : SignalReply) : Bool :=
  !r.killSignals || reply ≠ .refused

/-- Kills every process of the run, if a signal is sent and delivered.  An interpreter that had
ended already keeps its status. -/
def kill (r : Run) (reply : SignalReply) : Run :=
  if r.killSignals ∧ reply = .delivered then
    { r with
      stdout := r.stdout.shut, stderr := r.stderr.shut, status := some (r.status.getD .killed) }
  else r

/-- What comes of asking for the next event. -/
def receive (r : Run) : Receipt :=
  if !r.listening then .deaf
  else match r.queue with
    | e :: _ => .event e
    | [] => if r.isOver then .over else .nothingYet

/-- What can happen next in a run. -/
inductive Step
  /-- A process of the run writes to a stream that it holds. -/
  | write (stream : Stream) (bytes : Bytes)
  /-- The interpreter closes a stream. -/
  | close (stream : Stream)
  /-- The interpreter starts a process that inherits a stream. -/
  | bequeath (stream : Stream)
  /-- The last process that inherited a stream lets go of it. -/
  | release (stream : Stream)
  /-- The interpreter ends. -/
  | finish (status : Status)
  /-- A reader takes a chunk of some size. -/
  | read (stream : Stream) (size : Nat)
  /-- A read is interrupted and will be repeated. -/
  | interrupt (stream : Stream)
  /-- A reader finds the stream at its end. -/
  | readEnd (stream : Stream)
  /-- A read fails, which ends the stream for its reader. -/
  | readFail (stream : Stream)
  /-- A reader sends the next line. -/
  | send (stream : Stream)
  /-- The waiter finds both readers done. -/
  | join
  /-- The waiter looks for the exit status. -/
  | poll
  /-- Looking for the exit status fails. -/
  | pollFail
  /-- The waiter reports. -/
  | report
  /-- Somebody kills the run, and the system answers the signal, if one is sent. -/
  | kill (reply : SignalReply)
  /-- The next event is taken. -/
  | take
  /-- Nobody listens any more. -/
  | hangUp
deriving DecidableEq, Repr

/-- What a step makes of a run, if it is possible. -/
def step? (r : Run) : Step → Option Run
  | .write s bytes =>
    if r.isOpen s then
      some (r.setFeed s { r.feed s with unread := (r.feed s).unread ++ bytes })
    else none
  | .close s =>
    if (r.feed s).held then some (r.setFeed s { r.feed s with held := false }) else none
  | .bequeath s =>
    if r.status = none ∧ (r.feed s).held then some (r.setFeed s { r.feed s with lent := true })
    else none
  | .release s =>
    if (r.feed s).lent then some (r.setFeed s { r.feed s with lent := false }) else none
  | .finish status =>
    if r.status = none then some { r.letGo with status := some status } else none
  | .read s n =>
    if (r.feed s).isReading ∧ 0 < n ∧ n ≤ (r.feed s).unread.length ∧ n ≤ Feed.chunkLimit then
      some (r.setFeed s ((r.feed s).read n))
    else none
  | .interrupt s => if (r.feed s).isReading then some r else none
  | .readEnd s =>
    if (r.feed s).isReading ∧ (r.feed s).unread = [] ∧ !r.isOpen s then
      some (r.setFeed s (r.feed s).finish)
    else none
  | .readFail s =>
    if (r.feed s).isReading then some (r.setFeed s (r.feed s).finish) else none
  | .send s =>
    match (r.feed s).outbox with
    | [] => none
    | l :: ls => some ((r.setFeed s { r.feed s with outbox := ls }).send (.line s l))
  | .join =>
    if r.waiter = .joining ∧ r.stdout.isDone ∧ r.stderr.isDone then
      some { r with waiter := .polling }
    else none
  | .poll =>
    if r.waiter = .polling then
      match r.status with
      | none => some r
      | some status => some { r with collected := true, waiter := .reporting status.code? }
    else none
  | .pollFail =>
    if r.waiter = .polling then some { r with collected := true, waiter := .reporting none }
    else none
  | .report =>
    match r.waiter with
    | .reporting code => some ({ r with waiter := .done }.send (.exited code))
    | _ => none
  | .kill reply => some (r.kill reply)
  | .take => if r.queue = [] then none else some { r with queue := r.queue.tail }
  | .hangUp => some { r with listening := false, queue := [] }

/-- What a row of steps makes of a run, if each of them is possible in its turn. -/
abbrev steps? (r : Run) (steps : List Step) : Option Run :=
  Schedule.after? step? r steps

end Run

end ScriptWorkbench
