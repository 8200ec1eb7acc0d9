import ScriptWorkbench.Paint.Scheme
import ScriptWorkbench.Text.Literal
import ScriptWorkbench.Text.Position

/-!
# The token list

A token list has one line for each token of a script: the name of its class, a tab, and its text as
a quoted literal, which keeps tabs and line feeds of the token off the line.  `readTokenList?`
reads such a list back.
-/

set_option autoImplicit false

namespace ScriptWorkbench.CommandLine

/-- One line of the token list: the class, a tab, and the text as a literal. -/
def tokenLine (t : Token) : Text :=
  t.kind.name ++ '\t' :: t.text.quoted ++ ['\n']

/-- The token list of a script. -/
def tokenList (s : Scheme) (source : Text) : Text :=
  (s.tokens source).flatMap tokenLine

/-- The class and the text on one line of a token list, its line feed apart. -/
def readTokenLine? (line : Text) : Option (TokenClass × Text) :=
  match line.dropWhile (· ≠ '\t') with
  | [] => none
  | _ :: literal => do
    let kind ← TokenClass.ofName? (line.takeWhile (· ≠ '\t'))
    let text ← Text.unquote? literal
    return (kind, text)

/-- The classes and the texts of a token list.  Every line has to end in a line feed. -/
def readTokenList? (list : Text) : Option (List (TokenClass × Text)) :=
  if list.lines.getLast? = some [] then list.lines.dropLast.mapM readTokenLine? else none

end ScriptWorkbench.CommandLine
