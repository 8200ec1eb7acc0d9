import ScriptWorkbench.Paint.Scheme
import ScriptWorkbench.Report.Finding

/-!
# The script buffer and its cursor

The cursor is a byte offset that never stands inside a character or beyond the text.  A finding
can be followed to its place: `follow` goes to the nearest place that exists, `follow?` refuses if
the place itself does not exist and then leaves the cursor alone.
-/

set_option autoImplicit false

namespace ScriptWorkbench

/-- A script that is being edited. -/
structure Editor where
  text : Text
  cursor : Nat
  scheme : Scheme
deriving DecidableEq, Repr

namespace Editor

/-- What a new user finds in the buffer. -/
def sample : Text :=
  ("// This is a simple Kotlin script to test the process execution\n" ++
    "println(\"Hello from the Kotlin script!\")\n\n" ++
    "// Simple computation\n" ++
    "val result = 42 * 2\n" ++
    "println(\"The result of 42 * 2 is: $result\")\n\n" ++
    "// Simulate a delay (for testing live output)\n" ++
    "Thread.sleep(1000)\n" ++
    "println(\"This is printed after a 1-second delay.\")\n").toList

/-- An editor without text. -/
def new (scheme : Scheme) : Editor :=
  ⟨[], 0, scheme⟩

/-- Puts the cursor on the last boundary that is not beyond an offset. -/
def setCursor (e : Editor) (offset : Nat) : Editor :=
  { e with cursor := e.text.floorBoundary offset }

/-- Replaces the text and keeps the cursor where it was as far as the new text allows. -/
def setText (e : Editor) (text : Text) : Editor :=
  { e with text := text }.setCursor e.cursor

/-- An editor with the sample script and the standard scheme. -/
def start : Editor :=
  (new {}).setText sample

/-- The line and column of the cursor. -/
def position (e : Editor) : Position :=
  e.text.positionAt e.cursor

/-- The colored text. -/
def spans (e : Editor) : List Span :=
  e.scheme.spans e.text

/-- Goes to the place of a finding, or to the nearest place that exists. -/
def follow (e : Editor) (f : Finding) : Editor :=
  { e with cursor := e.text.nearestOffset f.place }

/-- Goes to the place of a finding, if it exists. -/
def follow? (e : Editor) (f : Finding) : Except PositionError Editor :=
  (e.text.offsetOf f.place).map fun n => { e with cursor := n }

/-- What can be done with an editor. -/
inductive Action
  | setText (text : Text)
  | setCursor (offset : Nat)
  | follow (f : Finding)
  /-- Follow a finding if its place exists. -/
  | tryFollow (f : Finding)
deriving DecidableEq, Repr

/-- What an action makes of an editor. -/
def act (e : Editor) : Action → Editor
  | .setText text => e.setText text
  | .setCursor offset => e.setCursor offset
  | .follow f => e.follow f
  | .tryFollow f => (e.follow? f).toOption.getD e

/-- What a row of actions makes of an editor. -/
def actAll (e : Editor) (actions : List Action) : Editor :=
  actions.foldl act e

/-- The cursor is at a boundary of the text. -/
def IsSound (e : Editor) : Prop :=
  e.text.IsBoundary e.cursor

end Editor

end ScriptWorkbench
