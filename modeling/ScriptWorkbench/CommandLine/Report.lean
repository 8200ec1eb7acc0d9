import ScriptWorkbench.Paint.Palette
import ScriptWorkbench.Session.Ledger

/-!
# What a run prints

The command line prints the output of a run as it comes: every entry on a line of its own, on the
stream that it came on, and at the end the return code on standard error.  A run that could not be
started prints only why.
-/

set_option autoImplicit false

namespace ScriptWorkbench

/-- What a command has printed and the status it ends with. -/
structure Outcome where
  status : Nat
  out : Text := []
  err : Text := []
deriving DecidableEq, Repr

namespace Outcome

/-- Prints on standard output first. -/
def printOut (t : Text) (o : Outcome) : Outcome :=
  { o with out := t ++ o.out }

/-- Prints on standard error first. -/
def printErr (t : Text) (o : Outcome) : Outcome :=
  { o with err := t ++ o.err }

/-- Prints an entry first, on the stream that it came on. -/
def printEntry (p : Palette) (e : Entry) (o : Outcome) : Outcome :=
  let line := e.render p ++ ['\n']
  match e with
  | .stdout _ => o.printOut line
  | .stderr _ => o.printErr line

/-- How a run that was killed, or exited with a code, ends the command. -/
def ofCode : Option ExitCode → Outcome
  | some code => ⟨if code < 256 then code else 1, [], "Return code: ".toList ++
      Text.decimal code ++ ['\n']⟩
  | none => ⟨1, [], "Return code: none (killed)\n".toList⟩

/-- How a run that could not be started ends the command. -/
def ofCause (cause : Failure) : Outcome :=
  ⟨127, [], "Error: ".toList ++ cause.message ++ ['\n']⟩

/-- Prints the updates of a session until it ends.  If they break off before, the command fails. -/
def ofUpdates (p : Palette) (id : SessionId) : List Update → Outcome
  | [] => ⟨1, [], []⟩
  | .output source entry :: us =>
    if source = id then (ofUpdates p id us).printEntry p entry else ofUpdates p id us
  | .state source state :: us =>
    if source = id then
      match state with
      | .running => ofUpdates p id us
      | .completed code => ofCode code
      | .failed cause => ofCause cause
    else ofUpdates p id us

end Outcome

end ScriptWorkbench
