import ScriptWorkbench.Paint.Palette

/-!
# Colored text on a terminal

A span is text with a color.  A terminal shows it between an escape sequence that selects the
color and one that resets it.
-/

set_option autoImplicit false

namespace ScriptWorkbench

/-- A piece of text with the color to show it in. -/
structure Span where
  text : Text
  color : Color
deriving DecidableEq, Repr

namespace Ansi

/-- The escape sequence of a terminal with a number as its only parameter. -/
def select (parameter : Nat) : Text :=
  '\x1b' :: '[' :: Text.decimal parameter ++ ['m']

/-- One span: its color, its text, and a reset. -/
def paint (s : Span) : Text :=
  select s.color.code ++ s.text ++ select 0

/-- Spans one after the other. -/
def render (spans : List Span) : Text :=
  spans.flatMap paint

end Ansi

end ScriptWorkbench
