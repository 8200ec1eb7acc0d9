import ScriptWorkbench.Text.Basic

/-!
# Tokens

A token is a classified piece of a script together with the byte offset at which it stands.
-/

set_option autoImplicit false

namespace ScriptWorkbench

/-- What a token is to the reader of a script. -/
inductive TokenClass
  /-- A word of the keyword table. -/
  | keyword
  /-- A run of whitespace. -/
  | whitespace
  /-- A semicolon on its own. -/
  | punctuation
  /-- A line comment or a block comment. -/
  | comment
  /-- Any other word or run of separators. -/
  | other
deriving DecidableEq, Repr

/-- The lower-case name of a class. -/
def TokenClass.name : TokenClass → Text
  | .keyword => "keyword".toList
  | .whitespace => "whitespace".toList
  | .punctuation => "punctuation".toList
  | .comment => "comment".toList
  | .other => "other".toList

/-- Every class. -/
def TokenClass.all : List TokenClass :=
  [.keyword, .whitespace, .punctuation, .comment, .other]

/-- The class of a name. -/
def TokenClass.ofName? (n : Text) : Option TokenClass :=
  all.find? fun k => k.name = n

/-- A class is found by its name. -/
theorem TokenClass.ofName?_name (k : TokenClass) : ofName? k.name = some k := by
  cases k <;> decide

/-- A classified piece of a script. -/
structure Token where
  kind : TokenClass
  text : Text
  /-- Byte offset of the first character in the script. -/
  offset : Nat
deriving DecidableEq, Repr

namespace Token

/-- Byte offset just past the last character. -/
def stop (t : Token) : Nat :=
  t.offset + t.text.byteSize

/-- The same token when `n` more bytes stand before it. -/
def shift (t : Token) (n : Nat) : Token :=
  { t with offset := t.offset + n }

end Token

end ScriptWorkbench
