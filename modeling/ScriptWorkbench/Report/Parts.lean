import ScriptWorkbench.Report.Finding

/-!
# The parts of a line with a finding

A line can carry a finding in more than one way: what stands before the name may end inside a
longer name, and a message may hold further locations.  `Parts` is one way to take a line apart,
`Parts.IsValid` the grammar that it has to follow, and `Parts.finding` what it says.  A line that
nothing takes apart is plain.  `anywhere?` looks for a finding at every place of a line.
-/

set_option autoImplicit false

namespace ScriptWorkbench.Finding

/-- The parts of a line, the marks between them apart. -/
structure Parts where
  lead : Text
  /-- The file name without its extension. -/
  name : Text
  lineDigits : Text
  columnDigits : Text
  message : Text
deriving DecidableEq, Repr

/-- Digits of a number that a finding can report; leading zeros are allowed. -/
def IsNumber (digits : Text) : Prop :=
  digits ≠ [] ∧ (∀ c ∈ digits, c.isDigit = true) ∧ Text.digitsValue digits ≤ maxNumber

/-- The name of a script file, without its extension. -/
def IsName (name : Text) : Prop :=
  name ≠ [] ∧ ∀ c ∈ name, isNameChar c = true

namespace Parts

/-- The line that the parts make up. -/
def line (p : Parts) : Text :=
  p.lead ++ p.name ++ marker ++ p.lineDigits ++ ':' :: p.columnDigits ++ ':' :: p.message

/-- The parts follow the grammar. -/
structure IsValid (p : Parts) : Prop where
  name : IsName p.name
  lineDigits : IsNumber p.lineDigits
  columnDigits : IsNumber p.columnDigits

/-- The finding that the parts make up. -/
def finding (p : Parts) : Finding :=
  ⟨p.lead, p.name ++ ['.', 'k', 't', 's'],
    ⟨Text.digitsValue p.lineDigits, Text.digitsValue p.columnDigits⟩, p.message⟩

/-- Valid parts of a text, such that none have a shorter lead. -/
structure IsLeftmost (p : Parts) (t : Text) : Prop where
  valid : p.IsValid
  line : p.line = t
  shortest : ∀ q : Parts, q.IsValid → q.line = t → p.lead.length ≤ q.lead.length

end Parts

/-- The first finding in a text, looked for at every place. -/
def anywhere? : Text → Option Finding
  | [] => none
  | c :: t => (here? (c :: t)).or ((anywhere? t).map fun f => { f with lead := c :: f.lead })

/-- The lead of a finding hides nothing: it does not end inside a name and carries no finding of
its own. -/
def IsOpen (f : Finding) : Prop :=
  (∀ c, f.lead.getLast? = some c → isNameChar c = false) ∧ ErrorLine.ofText f.lead = .plain f.lead

/-- A finding that some line can carry. -/
def IsPrintable (f : Finding) : Prop :=
  (∃ name, IsName name ∧ f.file = name ++ ['.', 'k', 't', 's']) ∧
    f.place.line ≤ maxNumber ∧ f.place.column ≤ maxNumber

end ScriptWorkbench.Finding
