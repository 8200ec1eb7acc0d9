import ScriptWorkbench.Text.Lines
import ScriptWorkbench.Text.Position
import ScriptWorkbench.Text.Slice

/-!
# Places by running offsets

Offsets and positions as they are found by going over a text: a position by counting up the bytes of
the lines before it and of the characters before it, an offset by going back to the nearest place
between characters, cutting the text there, and looking backwards for a line feed.  A cut that does
not lie between characters is none.

Such a cut is never asked for, and the answers are those of `Text.offsetOf` and `Text.positionAt`.
-/

set_option autoImplicit false

namespace ScriptWorkbench.PlaceScan

/-- Lines with the byte offsets at which they begin. -/
def numbered (start : Nat) : List Text → List (Nat × Text)
  | [] => []
  | l :: ls => (start, l) :: numbered (start + l.byteSize + 1) ls

/-- The byte offsets of the characters of a line, and that of its end. -/
def edges (start : Nat) : Text → List Nat
  | [] => [start]
  | c :: l => start :: edges (start + c.utf8Size) l

/-- The byte offset of a position, or what is missing. -/
def offsetOf (t : Text) (p : Position) : Except PositionError Nat :=
  if p.line = 0 ∨ p.column = 0 then .error ⟨.zero, p⟩
  else match (numbered 0 t.lines)[p.line - 1]? with
    | none => .error ⟨.noLine t.lineCount, p⟩
    | some (start, l) =>
      match (edges 0 l)[p.column - 1]? with
      | some within => .ok (start + within)
      | none => .error ⟨.noColumn l.length, p⟩

/-- The bytes that go on with a character. -/
def isInnerByte (b : UInt8) : Bool :=
  128 ≤ b && b < 192

/-- Whether byte `n` is the first one of a character, or the end. -/
def isEdge (bytes : Bytes) (n : Nat) : Bool :=
  n = 0 || n = bytes.length || bytes[n]?.any fun b => !isInnerByte b

/-- The last edge that is not beyond byte `n`. -/
def stepBack (bytes : Bytes) : Nat → Nat
  | 0 => 0
  | n + 1 => if isEdge bytes (n + 1) then n + 1 else stepBack bytes n

/-- The byte offset behind the last line feed. -/
def lastLineStart (bytes : Bytes) : Nat :=
  bytes.length - (bytes.reverse.takeWhile (· ≠ lineFeed)).length

/-- The position of a byte offset.  An offset beyond the text counts as its end. -/
def positionAt? (t : Text) (n : Nat) : Option Position := do
  let before ← t.sliceTo? (stepBack t.bytes (min n t.byteSize))
  let line ← before.sliceFrom? (lastLineStart before.bytes)
  return ⟨before.count '\n' + 1, line.length + 1⟩

end ScriptWorkbench.PlaceScan
