import ScriptWorkbench.Lexeme.Scan
import ScriptWorkbench.Paint.Ansi

/-!
# Highlighting a script

A scheme is a keyword table with a palette.  It colors a script token by token.
-/

set_option autoImplicit false

namespace ScriptWorkbench

/-- What decides how a script is shown. -/
structure Scheme where
  keywords : KeywordTable := KeywordTable.standard
  palette : Palette := {}
deriving DecidableEq, Repr

namespace Scheme

/-- The tokens of a script under the scheme's keywords. -/
def tokens (s : Scheme) (source : Text) : List Token :=
  Lexeme.tokenize s.keywords source

/-- One span for each token, in the order of the script. -/
def spans (s : Scheme) (source : Text) : List Span :=
  (s.tokens source).map fun t => ⟨t.text, s.palette.colorOf t.kind⟩

/-- The script as a terminal shows it. -/
def render (s : Scheme) (source : Text) : Text :=
  Ansi.render (s.spans source)

end Scheme

end ScriptWorkbench
