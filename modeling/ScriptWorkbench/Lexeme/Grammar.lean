import ScriptWorkbench.Lexeme.Scan

/-!
# The lexical grammar

`Reads table t u k` says that a token of class `k` with the characters `u` stands at the front of
`t`.  It is said by what `u` is among the beginnings of `t`, the longest with some property or the
shortest, and not by how it is found.  `ReadsAll` says the same of all tokens of a text.

`IsWord` says which strings can be words at all; an entry of a keyword table that is none never
matters.
-/

set_option autoImplicit false

namespace ScriptWorkbench.Lexeme

/-- `u` is the longest beginning of `t` with property `P`. -/
def IsLongest (P : Text → Prop) (t u : Text) : Prop :=
  u <+: t ∧ P u ∧ ∀ v : Text, v <+: t → P v → v.length ≤ u.length

/-- `u` is the shortest beginning of `t` with property `P`. -/
def IsShortest (P : Text → Prop) (t u : Text) : Prop :=
  u <+: t ∧ P u ∧ ∀ v : Text, v <+: t → P v → u.length ≤ v.length

/-- What opens a line comment. -/
def lineOpener : Text := ['/', '/']

/-- What opens a block comment. -/
def blockOpener : Text := ['/', '*']

/-- What closes a block comment. -/
def blockCloser : Text := ['*', '/']

/-- `u` could be a whole block comment: its opener and its closer do not share a character. -/
def IsClosedBlock (u : Text) : Prop :=
  4 ≤ u.length ∧ blockCloser <:+ u

/-- Line feed, carriage return, next line, line separator and paragraph separator. -/
def lineEndChars : List Char := ['\n', '\r', '\u0085', '\u2028', '\u2029']

/-- The cutting stops a line comment at these characters. -/
theorem isLineEnd_iff (c : Char) : isLineEnd c = true ↔ c ∈ lineEndChars := by
  simp [isLineEnd, lineEndChars, or_assoc]

/-- Parentheses, the semicolon, and space, tab, line feed, vertical tab, form feed and carriage
return. -/
def separatorChars : List Char := ['(', ')', ';', ' ', '\t', '\n', '\x0b', '\x0c', '\r']

/-- The cutting stops a word at these characters. -/
theorem isSeparator_iff (c : Char) : isSeparator c = true ↔ c ∈ separatorChars := by
  simp [isSeparator, isBlank, separatorChars, or_assoc]

/-- `u` holds no character that ends a line. -/
def IsUnbroken (u : Text) : Prop :=
  ∀ c ∈ u, c ∉ lineEndChars

/-- `u` holds nothing but separators. -/
def IsSeparators (u : Text) : Prop :=
  ∀ c ∈ u, c ∈ separatorChars

/-- `u` holds no separator. -/
def IsUnseparated (u : Text) : Prop :=
  ∀ c ∈ u, c ∉ separatorChars

/-- The class of a run of separators. -/
inductive SeparatorClass : Text → TokenClass → Prop
  | semicolon : SeparatorClass [';'] .punctuation
  | blank {u : Text} (hopen : '(' ∉ u) (hclose : ')' ∉ u) (hsemicolon : ';' ∉ u) :
    SeparatorClass u .whitespace
  | other {u : Text} (hmixed : '(' ∈ u ∨ ')' ∈ u ∨ ';' ∈ u) (hne : u ≠ [';']) :
    SeparatorClass u .other

/-- The class of a word. -/
inductive WordClass (table : KeywordTable) : Text → TokenClass → Prop
  | keyword {u : Text} (h : u ∈ table) : WordClass table u .keyword
  | other {u : Text} (h : u ∉ table) : WordClass table u .other

/-- A token of class `k` with the characters `u` stands at the front of `t`. -/
inductive Reads (table : KeywordTable) (t u : Text) : TokenClass → Prop
  | lineComment (hopen : lineOpener <+: t) (h : IsLongest IsUnbroken t u) : Reads table t u .comment
  | closedComment (hopen : blockOpener <+: t) (h : IsShortest IsClosedBlock t u) :
    Reads table t u .comment
  | openComment (hopen : blockOpener <+: t) (h : ∀ v : Text, v <+: t → ¬ IsClosedBlock v)
    (hall : u = t) : Reads table t u .comment
  | separators {k : TokenClass} (hfirst : ∃ c ∈ t.head?, c ∈ separatorChars)
    (h : IsLongest IsSeparators t u) (hclass : SeparatorClass u k) : Reads table t u k
  | word {k : TokenClass} (hline : ¬ lineOpener <+: t) (hblock : ¬ blockOpener <+: t)
    (hfirst : ∃ c ∈ t.head?, c ∉ separatorChars) (h : IsLongest IsUnseparated t u)
    (hclass : WordClass table u k) : Reads table t u k

/-- A row of tokens that the grammar reads one after the other, from a byte offset to the end of the
text. -/
inductive ReadsAll (table : KeywordTable) : Nat → Text → List Token → Prop
  | nil (offset : Nat) : ReadsAll table offset [] []
  | cons {offset : Nat} {u t : Text} {k : TokenClass} {row : List Token} (hne : u ≠ [])
    (h : Reads table (u ++ t) u k) (hrow : ReadsAll table (offset + u.byteSize) t row) :
    ReadsAll table offset (u ++ t) (⟨k, u, offset⟩ :: row)

/-- The characters of a word: there is one, none is a separator, and they do not open a comment. -/
def IsWord (w : Text) : Prop :=
  w ≠ [] ∧ IsUnseparated w ∧ ¬ lineOpener <+: w ∧ ¬ blockOpener <+: w

end ScriptWorkbench.Lexeme
