import ScriptWorkbench.Text.PlaceScan

/-!
# Places in machine words

A machine adds and subtracts numbers up to a greatest one.  Going over a text for a position, it
adds up sizes and counts characters, and it has added the size of a line and its line feed before it
knows whether that line is the one it looks for.  Here an operation whose result is not a machine
word gives none, and so does everything that needs it.
-/

set_option autoImplicit false

namespace ScriptWorkbench.WordScan

variable (max : Nat)

/-- The sum of two words, if it is a word. -/
def add? (a b : Nat) : Option Nat :=
  if a + b ≤ max then some (a + b) else none

/-- The difference of two words, if it is not below zero. -/
def sub? (a b : Nat) : Option Nat :=
  if b ≤ a then some (a - b) else none

/-- How many characters of a kind stand in a text, counted up from `n`. -/
def count? (q : Char → Bool) (n : Nat) : Text → Option Nat
  | [] => some n
  | c :: t => if q c then do count? q (← add? max n 1) t else count? q n t

/-- The line of an index and the offset at which it begins.  There may be no such line. -/
def nthLine? (start : Nat) : List Text → Nat → Option (Option (Nat × Text))
  | [], _ => some none
  | l :: ls, index => do
    let next ← add? max start (← add? max l.byteSize 1)
    match index with
    | 0 => return some (start, l)
    | index + 1 => nthLine? next ls index

/-- The offset of the character of an index in a line, or of the end of the line.  The line may be
shorter. -/
def nthEdge? (start : Nat) : Text → Nat → Option (Option Nat)
  | [], 0 => some (some start)
  | [], _ + 1 => some none
  | c :: l, index => do
    let next ← add? max start c.utf8Size
    match index with
    | 0 => return some start
    | index + 1 => nthEdge? next l index

/-- The byte offset of a position, or what is missing. -/
def offsetOf? (t : Text) (p : Position) : Option (Except PositionError Nat) :=
  if p.line = 0 ∨ p.column = 0 then some (.error ⟨.zero, p⟩)
  else do
    match ← nthLine? max 0 t.lines (← sub? p.line 1) with
    | none =>
      let feeds ← count? max (· = '\n') 0 t
      return .error ⟨.noLine (← add? max feeds 1), p⟩
    | some (start, l) =>
      match ← nthEdge? max 0 l (← sub? p.column 1) with
      | some within => return .ok (← add? max start within)
      | none => return .error ⟨.noColumn (← count? max (fun _ => true) 0 l), p⟩

end ScriptWorkbench.WordScan
