import ScriptWorkbench.Text.Basic

/-!
# Lines and columns

A position counts lines and columns from one.  Lines end at line feeds, columns count characters,
and the column just past the last character of a line is a position too.  `offsetOf` turns a
position into a byte offset or says what is missing, `nearestOffset` always finds an offset, and
`positionAt` goes the other way.
-/

set_option autoImplicit false

namespace ScriptWorkbench

/-- A line and a column, both counted from one. -/
structure Position where
  line : Nat
  column : Nat
deriving DecidableEq, Repr

/-- Positions are ordered as they follow in a text: by line, then by column. -/
instance : LE Position :=
  ⟨fun p q => p.line < q.line ∨ p.line = q.line ∧ p.column ≤ q.column⟩

/-- Positions go by line first, and by column within a line. -/
theorem Position.le_def (p q : Position) :
    p ≤ q ↔ p.line < q.line ∨ p.line = q.line ∧ p.column ≤ q.column := Iff.rfl

/-- The order of positions can be decided. -/
instance (p q : Position) : Decidable (p ≤ q) :=
  decidable_of_iff _ (Position.le_def p q).symm

/-- The position with zeros raised to one. -/
def Position.raise (p : Position) : Position :=
  ⟨max p.line 1, max p.column 1⟩

/-- Why a text has no such position. -/
inductive PositionFault
  /-- The line or the column is zero. -/
  | zero
  /-- The text has only so many lines. -/
  | noLine (lines : Nat)
  /-- The line has only so many characters. -/
  | noColumn (width : Nat)
deriving DecidableEq, Repr

/-- A fault with the position that was asked for. -/
structure PositionError where
  fault : PositionFault
  requested : Position
deriving DecidableEq, Repr

/-- What is missing, in words. -/
def PositionFault.message : PositionFault → Text
  | .zero => "line and column are 1-based".toList
  | .noLine lines => "buffer has only ".toList ++ Text.decimal lines ++ " line(s)".toList
  | .noColumn width => "line has only ".toList ++ Text.decimal width ++ " character(s)".toList

/-- The fault in words, followed by the request. -/
def PositionError.message (e : PositionError) : Text :=
  e.fault.message ++ " (requested line ".toList ++ Text.decimal e.requested.line ++
    ", column ".toList ++ Text.decimal e.requested.column ++ ")".toList

namespace Text

/-- The lines of a text, without their line feeds.  There is always at least one. -/
def lines : Text → List Text
  | [] => [[]]
  | c :: t =>
    if c = '\n' then [] :: lines t
    else match lines t with
      | [] => [[c]]
      | l :: ls => (c :: l) :: ls

/-- Number of lines of a text: one more than it has line feeds. -/
def lineCount (t : Text) : Nat :=
  t.count '\n' + 1

/-- The byte offset at which the line of an index begins. -/
def lineStart (t : Text) (index : Nat) : Nat :=
  (t.lines.take index).foldr (fun l n => byteSize l + 1 + n) 0

/-- The byte offset of a position, or what is missing. -/
def offsetOf (t : Text) (p : Position) : Except PositionError Nat :=
  if p.line = 0 ∨ p.column = 0 then .error ⟨.zero, p⟩
  else match t.lines[p.line - 1]? with
    | none => .error ⟨.noLine t.lineCount, p⟩
    | some l =>
      if p.column - 1 ≤ l.length then
        .ok (t.lineStart (p.line - 1) + byteSize (l.take (p.column - 1)))
      else .error ⟨.noColumn l.length, p⟩

/-- The byte offset of a position.  Zeros count as one, a column beyond its line gives the end of
that line, and a line beyond the text gives the end of the text. -/
def nearestOffset (t : Text) (p : Position) : Nat :=
  match t.offsetOf p.raise with
  | .ok n => n
  | .error ⟨.noColumn width, q⟩ =>
    match t.offsetOf ⟨q.line, width + 1⟩ with
    | .ok n => n
    | .error _ => byteSize t
  | .error _ => byteSize t

/-- The position of a byte offset.  An offset beyond the text counts as its end, one inside a
character as the beginning of that character. -/
def positionAt (t : Text) (n : Nat) : Position :=
  let before := t.takeBytes n
  ⟨before.lineCount, (before.reverse.takeWhile (· ≠ '\n')).length + 1⟩

end Text

end ScriptWorkbench
