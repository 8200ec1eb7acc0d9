import ScriptWorkbench.Report.Finding
import ScriptWorkbench.Paint.Ansi

/-!
# Entries of the output

The output of a run is a list of entries, one for each line of either stream.  Lines of standard
error are recognised before they are kept.
-/

set_option autoImplicit false

namespace ScriptWorkbench

/-- The two output streams of an interpreter. -/
inductive Stream
  | stdout
  | stderr
deriving DecidableEq, Repr

/-- The name of a stream. -/
def Stream.name : Stream → Text
  | .stdout => "stdout".toList
  | .stderr => "stderr".toList

/-- One line of the output. -/
inductive Entry
  | stdout (text : Text)
  | stderr (line : ErrorLine)
deriving DecidableEq, Repr

namespace Entry

/-- The entry of a line that came on a stream. -/
def ofLine : Stream → Text → Entry
  | .stdout, text => .stdout text
  | .stderr, text => .stderr (ErrorLine.ofText text)

/-- The finding that an entry carries. -/
def finding? : Entry → Option Finding
  | .stdout _ => none
  | .stderr line => line.finding?

/-- The entry as plain text. -/
def display : Entry → Text
  | .stdout text => text
  | .stderr line => line.display

/-- The color of an entry, its location apart. -/
def color (p : Palette) : Entry → Color
  | .stdout _ => p.stdout
  | .stderr _ => p.stderr

/-- The colored pieces of an entry: a finding has its location in a color of its own. -/
def spans (p : Palette) : Entry → List Span
  | .stdout text => [⟨text, p.stdout⟩]
  | .stderr (.plain text) => [⟨text, p.stderr⟩]
  | .stderr (.finding f) =>
    [⟨f.lead, p.stderr⟩, ⟨f.location, p.location⟩, ⟨':' :: f.message, p.stderr⟩]

/-- The entry as a terminal shows it. -/
def render (p : Palette) (e : Entry) : Text :=
  Ansi.render (e.spans p)

end Entry

end ScriptWorkbench
