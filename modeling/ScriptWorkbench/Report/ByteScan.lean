import ScriptWorkbench.Report.Finding
import ScriptWorkbench.Text.Slice
import ScriptWorkbench.Text.Utf8

/-!
# Findings by byte offsets

The search for a finding as it goes over the bytes of a line: a name is a run of bytes, a number is
a run of bytes, and both are cut out of the line as slices.  A slice that does not begin and end
between two characters stops the search for good (`Stop.badSlice`).

The search never stops like this and answers what `ErrorLine.ofText` answers.
-/

set_option autoImplicit false

namespace ScriptWorkbench.ByteScan

open Finding

/-- Why there is no finding at a place. -/
inductive Stop
  /-- The text does not go on like a finding. -/
  | mismatch
  /-- A slice begins or ends inside a character, or beyond the text. -/
  | badSlice
deriving DecidableEq, Repr

/-- What was found, or a stop. -/
def orStop {α : Type} (stop : Stop) (found : Option α) : Except Stop α :=
  match found with
  | some a => .ok a
  | none => .error stop

/-- A slice that has to be there. -/
def slice (cut : Option Text) : Except Stop Text :=
  orStop .badSlice cut

/-- What remains of a text after `expected`. -/
def expect (expected t : Text) : Except Stop Text :=
  orStop .mismatch (expect? expected t)

/-- The bytes of ASCII digits. -/
def isDigitByte (b : UInt8) : Bool :=
  48 ≤ b && b ≤ 57

/-- The bytes of name characters. -/
def isNameByte (b : UInt8) : Bool :=
  (isDigitByte b || (65 ≤ b && b ≤ 90) || (97 ≤ b && b ≤ 122)) || b = 95 || b = 45

/-- A number and the text after it. -/
def number (t : Text) : Except Stop (Nat × Text) :=
  let length := (t.bytes.takeWhile isDigitByte).length
  if length = 0 then .error .mismatch
  else do
    let digits ← slice (t.sliceTo? length)
    if maxNumber < Text.digitsValue digits then .error .mismatch
    else do
      let rest ← slice (t.sliceFrom? length)
      return (Text.digitsValue digits, rest)

/-- The finding whose name begins at byte `start`. -/
def matchAt (line : Text) (start : Nat) : Except Stop Finding := do
  let tail ← slice (line.sliceFrom? start)
  let nameEnd := start + (tail.bytes.takeWhile isNameByte).length
  let rest ← slice (line.sliceFrom? nameEnd)
  let rest ← expect ['.', 'k', 't', 's'] rest
  let rest ← expect [':'] rest
  let (number₁, rest) ← number rest
  let rest ← expect [':'] rest
  let (number₂, rest) ← number rest
  let message ← expect [':'] rest
  let lead ← slice (line.sliceTo? start)
  let file ← slice ((line.sliceTo? (nameEnd + 4)).bind fun t => t.sliceFrom? start)
  return ⟨lead, file, ⟨number₁, number₂⟩, message⟩

/-- The bytes where a run of name bytes begins. -/
def nameStarts (bytes : Bytes) : List Nat :=
  (List.range bytes.length).filter fun i =>
    bytes[i]?.any isNameByte && (i = 0 || !bytes[i - 1]?.any isNameByte)

/-- The first finding that begins at one of some places. -/
def scanFrom (line : Text) : List Nat → Except Stop ErrorLine
  | [] => .ok (.plain line)
  | start :: later =>
    match matchAt line start with
    | .ok f => .ok (.finding f)
    | .error .mismatch => scanFrom line later
    | .error .badSlice => .error .badSlice

/-- The first finding of a line. -/
def scan (line : Text) : Except Stop ErrorLine :=
  scanFrom line (nameStarts line.bytes)

end ScriptWorkbench.ByteScan
