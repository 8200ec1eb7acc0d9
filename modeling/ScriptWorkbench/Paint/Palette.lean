import ScriptWorkbench.Lexeme.Token

/-!
# Colors and the palette

Token classes and output streams are shown in colors of a palette.
-/

set_option autoImplicit false

namespace ScriptWorkbench

/-- The colors a terminal has. -/
inductive Color
  | black
  | white
  | gray
  | red
  | green
  | blue
  | yellow
  | magenta
  | cyan
deriving DecidableEq, Repr

namespace Color

/-- Every color, in the order in which messages list them. -/
def all : List Color :=
  [.black, .white, .gray, .red, .green, .blue, .yellow, .magenta, .cyan]

/-- The lower-case name of a color. -/
def name : Color → Text
  | .black => "black".toList
  | .white => "white".toList
  | .gray => "gray".toList
  | .red => "red".toList
  | .green => "green".toList
  | .blue => "blue".toList
  | .yellow => "yellow".toList
  | .magenta => "magenta".toList
  | .cyan => "cyan".toList

/-- The color of a name. -/
def ofName? (n : Text) : Option Color :=
  all.find? fun c => c.name = n

/-- The number that selects a color as the foreground of a terminal. -/
def code : Color → Nat
  | .black => 30
  | .red => 31
  | .green => 32
  | .yellow => 33
  | .blue => 34
  | .magenta => 35
  | .cyan => 36
  | .white => 37
  | .gray => 90

/-- A color is found by its name. -/
theorem ofName?_name (c : Color) : ofName? c.name = some c := by
  cases c <;> decide

end Color

/-- A color for every kind of thing that is shown. -/
structure Palette where
  keyword : Color := .blue
  punctuation : Color := .gray
  comment : Color := .black
  /-- Everything that has no entry of its own. -/
  default : Color := .black
  /-- Lines of standard output. -/
  stdout : Color := .gray
  /-- Lines of standard error. -/
  stderr : Color := .red
  /-- The location inside a finding. -/
  location : Color := .blue
deriving DecidableEq, Repr

/-- The color of a token class. -/
def Palette.colorOf (p : Palette) : TokenClass → Color
  | .keyword => p.keyword
  | .punctuation => p.punctuation
  | .comment => p.comment
  | .whitespace => p.default
  | .other => p.default

end ScriptWorkbench
