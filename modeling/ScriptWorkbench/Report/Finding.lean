import ScriptWorkbench.Text.Position

/-!
# Findings in error output

A compiler reports a finding on one line: some text, the name of a script file, a line, a column
and a message, `…name.kts:LINE:COLUMN:…`.  Names are made of ASCII letters, digits, underscores and
hyphens.  A line of standard error either carries a finding or is plain.

`ErrorLine.ofText` finds the leftmost finding.  It looks only where a run of name characters
begins: a finding that began later in a run would be found at its beginning already.
-/

set_option autoImplicit false

namespace ScriptWorkbench

/-- A place in a script that a compiler complains about. -/
structure Finding where
  /-- What stands before the file name. -/
  lead : Text
  /-- The file name with its extension. -/
  file : Text
  /-- The line and the column as they were reported. -/
  place : Position
  /-- What stands after the last colon of the location. -/
  message : Text
deriving DecidableEq, Repr

namespace Finding

/-- The greatest line or column that a finding can report. -/
def maxNumber : Nat := Nat.pow 2 32 - 1

/-- What follows the name in a file name, with the colon after it. -/
def marker : Text := ['.', 'k', 't', 's', ':']

/-- ASCII letters, digits, underscore and hyphen. -/
def isNameChar (c : Char) : Bool :=
  c.isAlphanum || c = '_' || c = '-'

/-- The location as it is shown: file, line and column with colons between them. -/
def location (f : Finding) : Text :=
  f.file ++ ':' :: Text.decimal f.place.line ++ ':' :: Text.decimal f.place.column

/-- The whole line of a finding. -/
def display (f : Finding) : Text :=
  f.lead ++ f.location ++ ':' :: f.message

/-- A number and the text after it, if digits begin the text and their value is not too great. -/
def number? (t : Text) : Option (Nat × Text) :=
  let digits := t.takeWhile Char.isDigit
  let value := Text.digitsValue digits
  if digits ≠ [] ∧ value ≤ maxNumber then some (value, t.dropWhile Char.isDigit) else none

/-- What remains of a text after `expected`, if the text begins with it. -/
def expect? (expected t : Text) : Option Text :=
  if expected <+: t then some (t.drop expected.length) else none

/-- The finding that begins with the name at the front of a text. -/
def here? (t : Text) : Option Finding := do
  let name := t.takeWhile isNameChar
  let rest ← expect? marker (t.dropWhile isNameChar)
  let (line, rest) ← number? rest
  let rest ← expect? [':'] rest
  let (column, rest) ← number? rest
  let message ← expect? [':'] rest
  if name = [] then none
  else some ⟨[], name ++ ['.', 'k', 't', 's'], ⟨line, column⟩, message⟩

/-- The first finding in a text.  The flag says whether a name character stands just before the
text, in which case no name begins at its front. -/
def first? (insideName : Bool) : Text → Option Finding
  | [] => none
  | c :: t =>
    let later := (first? (isNameChar c) t).map fun f => { f with lead := c :: f.lead }
    if isNameChar c && !insideName then (here? (c :: t)).or later else later

end Finding

/-- A line of standard error. -/
inductive ErrorLine
  | finding (f : Finding)
  /-- A line without a finding, as it came. -/
  | plain (text : Text)
deriving DecidableEq, Repr

namespace ErrorLine

/-- Recognises the leftmost finding of a line. -/
def ofText (line : Text) : ErrorLine :=
  match Finding.first? false line with
  | some f => .finding f
  | none => .plain line

/-- The finding on a line, if there is one. -/
def finding? : ErrorLine → Option Finding
  | .finding f => some f
  | .plain _ => none

/-- The line as it is shown. -/
def display : ErrorLine → Text
  | .finding f => f.display
  | .plain text => text

end ErrorLine

end ScriptWorkbench
