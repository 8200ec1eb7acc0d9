import ScriptWorkbench.Lexeme.Token

/-!
# Cutting a script into tokens

Every script is a row of comments, separator runs and words.  What stands at a place is decided by
its first two characters (`Shape.of`): `//` and `/*` open a comment, a separator opens a run of
separators, and anything else opens a word.  A comment opener inside a word or a run does not
count, because it is not at the beginning of a token.

`tokenize` never fails.  The first token of a text is never empty (`lexeme_ne_nil`), which is why
the cutting ends.
-/

set_option autoImplicit false

namespace ScriptWorkbench

/-- The words that are shown as keywords.  Order and repetitions do not matter. -/
abbrev KeywordTable := List Text

/-- The table that is used when none is given. -/
def KeywordTable.standard : KeywordTable :=
  ["val", "var", "if", "for", "fun", "println"].map String.toList

/-- Whether a word is in the table. -/
def KeywordTable.isKeyword (table : KeywordTable) (word : Text) : Bool :=
  table.contains word

namespace Lexeme

/-- Space, tab, line feed, vertical tab, form feed and carriage return. -/
def isBlank (c : Char) : Bool :=
  c = ' ' || c = '\t' || c = '\n' || c = '\x0b' || c = '\x0c' || c = '\r'

/-- The characters that end a word: parentheses, the semicolon and whitespace. -/
def isSeparator (c : Char) : Bool :=
  c = '(' || c = ')' || c = ';' || isBlank c

/-- The characters that end a line comment: line feed, carriage return, next line, line separator
and paragraph separator. -/
def isLineEnd (c : Char) : Bool :=
  c = '\n' || c = '\r' || c = '\u0085' || c = '\u2028' || c = '\u2029'

/-- The four things that can stand at the beginning of a token. -/
inductive Shape
  | lineComment
  | blockComment
  | separators
  | word
deriving DecidableEq, Repr

/-- What stands at the beginning of a text. -/
def Shape.of : Text → Shape
  | '/' :: '/' :: _ => .lineComment
  | '/' :: '*' :: _ => .blockComment
  | c :: _ => if isSeparator c then .separators else .word
  | [] => .word

/-- A text up to and including its first `*/`, or all of it if there is none. -/
def throughClose : Text → Text
  | '*' :: '/' :: _ => ['*', '/']
  | c :: t => c :: throughClose t
  | [] => []

/-- The beginning of a text that a shape covers.  The two opening characters of a block comment
cannot be part of its end. -/
def Shape.cover : Shape → Text → Text
  | .lineComment, t => t.takeWhile fun c => !isLineEnd c
  | .blockComment, t => t.take 2 ++ throughClose (t.drop 2)
  | .separators, t => t.takeWhile isSeparator
  | .word, t => t.takeWhile fun c => !isSeparator c

/-- The class of a lexeme of a given shape. -/
def Shape.classify (table : KeywordTable) : Shape → Text → TokenClass
  | .lineComment, _ => .comment
  | .blockComment, _ => .comment
  | .separators, lexeme =>
    if lexeme = [';'] then .punctuation
    else if lexeme.all isBlank then .whitespace
    else .other
  | .word, lexeme => if table.isKeyword lexeme then .keyword else .other

/-- The characters of the first token of a text. -/
def lexeme (t : Text) : Text :=
  (Shape.of t).cover t

/-- What goes up to the first closer is a beginning of the text. -/
theorem isPrefix_throughClose (t : Text) : throughClose t <+: t := by
  fun_induction throughClose t with
  | case1 r => exact ⟨r, rfl⟩
  | case2 c t _ ih => exact (List.cons_prefix_cons).2 ⟨rfl, ih⟩
  | case3 => exact List.prefix_refl _

/-- The first token is a beginning of the text. -/
theorem lexeme_isPrefix (t : Text) : lexeme t <+: t := by
  unfold lexeme
  cases Shape.of t with
  | lineComment => exact List.takeWhile_prefix _
  | blockComment =>
    obtain ⟨r, hr⟩ := isPrefix_throughClose (t.drop 2)
    exact ⟨r, by simp [Shape.cover, List.append_assoc, hr]⟩
  | separators => exact List.takeWhile_prefix _
  | word => exact List.takeWhile_prefix _

/-- The first token of a text that is not empty has a character. -/
theorem lexeme_ne_nil {t : Text} (h : t ≠ []) : lexeme t ≠ [] := by
  unfold lexeme
  fun_cases Shape.of t with
  | case1 => simp [Shape.cover, isLineEnd]
  | case2 => simp [Shape.cover]
  | case3 c t _ _ hc => simp [Shape.cover, hc]
  | case4 c t _ _ hc => simp [Shape.cover, hc]
  | case5 => exact absurd rfl h

/-- The text behind its first token is shorter, so the cutting ends. -/
theorem length_drop_lexeme_lt {t : Text} (h : t ≠ []) :
    (t.drop (lexeme t).length).length < t.length := by
  have hpos := List.length_pos_iff.2 (lexeme_ne_nil h)
  have hlen := List.length_pos_iff.2 h
  rw [List.length_drop]
  omega

/-- The tokens of a text that begins at a byte offset. -/
def tokensFrom (table : KeywordTable) (offset : Nat) (t : Text) : List Token :=
  if _h : t = [] then []
  else
    ⟨(Shape.of t).classify table (lexeme t), lexeme t, offset⟩ ::
      tokensFrom table (offset + (lexeme t).byteSize) (t.drop (lexeme t).length)
termination_by t.length
decreasing_by exact length_drop_lexeme_lt (by assumption)

/-- The tokens of a script under a keyword table. -/
def tokenize (table : KeywordTable) (source : Text) : List Token :=
  tokensFrom table 0 source

end Lexeme

end ScriptWorkbench
