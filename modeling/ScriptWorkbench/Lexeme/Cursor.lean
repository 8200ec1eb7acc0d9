import ScriptWorkbench.Lexeme.Scan
import ScriptWorkbench.Text.Slice

/-!
# Cutting by byte offsets

The same cutting as a cursor does it that goes over the bytes of a script.  Runs of separators and
words end at a byte, line comments at a character, and block comments at the first place where their
closer stands.  Tokens and words are cut out as slices.

Two things could go wrong on the way: a slice that does not lie between characters of the script,
and a token without a byte, which would leave the cursor where it is for good.  Neither does, and
the tokens are those of `Lexeme.tokenize`.
-/

set_option autoImplicit false

namespace ScriptWorkbench

namespace Text

/-- The byte offset of the first character of a class. -/
def findChar? (q : Char → Bool) : Text → Option Nat
  | [] => none
  | c :: t => if q c then some 0 else (findChar? q t).map (c.utf8Size + ·)

/-- The byte offset at which a pattern stands for the first time. -/
def find? (pattern : Text) : Text → Option Nat
  | [] => if pattern = [] then some 0 else none
  | c :: t => if pattern <+: c :: t then some 0 else (find? pattern t).map (c.utf8Size + ·)

end Text

namespace Lexeme.Cursor

/-- Why the cutting does not come to its end. -/
inductive Halt
  /-- A slice begins or ends inside a character, or beyond the script. -/
  | badSlice
  /-- A token has no bytes. -/
  | standstill
deriving DecidableEq, Repr

/-- A slice that has to be there. -/
def slice {α : Type} : Option α → Except Halt α
  | some cut => .ok cut
  | none => .error .badSlice

/-- The byte that comments begin with. -/
def slash : UInt8 := 47

/-- The byte that makes a slash open a block comment. -/
def asterisk : UInt8 := 42

/-- The byte of the semicolon. -/
def semicolon : UInt8 := 59

/-- The bytes of whitespace. -/
def isBlankByte (b : UInt8) : Bool :=
  b = 32 || b = 9 || b = 10 || b = 11 || b = 12 || b = 13

/-- The bytes of separators. -/
def isSeparatorByte (b : UInt8) : Bool :=
  b = 40 || b = 41 || b = semicolon || isBlankByte b

/-- Where the run of bytes of a class ends that begins at `pos`. -/
def skipWhile (keep : UInt8 → Bool) (input : Bytes) (pos : Nat) : Nat :=
  if h : pos < input.length then
    if keep input[pos] then skipWhile keep input (pos + 1) else pos
  else pos
termination_by input.length - pos

/-- Where the line comment at `start` ends. -/
def lineCommentEnd (source : Text) (start : Nat) : Except Halt Nat := do
  let rest ← slice (source.sliceFrom? start)
  return start + (rest.findChar? isLineEnd).getD rest.byteSize

/-- Where the block comment at `start` ends.  The closer is looked for behind the opener. -/
def blockCommentEnd (source : Text) (start : Nat) : Except Halt Nat := do
  let body ← slice (source.sliceFrom? (start + 2))
  match Text.find? ['*', '/'] body with
  | some n => return start + 2 + n + 2
  | none => return source.bytes.length

/-- The class of the separators from `start` up to `stop`. -/
def separatorClass (source : Text) (start stop : Nat) : Except Halt TokenClass := do
  let run ← slice (source.bytes.slice? start stop)
  return if run = [semicolon] then .punctuation
    else if run.all isBlankByte then .whitespace
    else .other

/-- The class of the word from `start` up to `stop`. -/
def wordClass (table : KeywordTable) (source : Text) (start stop : Nat) :
    Except Halt TokenClass := do
  let word ← slice (source.slice? start stop)
  return if table.isKeyword word then .keyword else .other

/-- The class of the token at `start`, which begins with byte `first`, and where it ends. -/
def next (table : KeywordTable) (source : Text) (start : Nat) (first : UInt8) :
    Except Halt (TokenClass × Nat) := do
  let second := source.bytes[start + 1]?
  if first = slash ∧ second = some slash then
    let stop ← lineCommentEnd source start
    return (.comment, stop)
  else if first = slash ∧ second = some asterisk then
    let stop ← blockCommentEnd source start
    return (.comment, stop)
  else if isSeparatorByte first then
    let stop := skipWhile isSeparatorByte source.bytes start
    let kind ← separatorClass source start stop
    return (kind, stop)
  else
    let stop := skipWhile (fun b => !isSeparatorByte b) source.bytes start
    let kind ← wordClass table source start stop
    return (kind, stop)

/-- The tokens from byte `start` on. -/
def tokensFrom (table : KeywordTable) (source : Text) (start : Nat) : Except Halt (List Token) :=
  if _h : start < source.bytes.length then do
    let (kind, stop) ← next table source start source.bytes[start]
    let text ← slice (source.slice? start stop)
    if start < stop then
      let later ← tokensFrom table source stop
      return ⟨kind, text, start⟩ :: later
    else .error .standstill
  else return []
termination_by source.bytes.length - start

/-- The tokens of a script. -/
def tokenize (table : KeywordTable) (source : Text) : Except Halt (List Token) :=
  tokensFrom table source 0

end Lexeme.Cursor

end ScriptWorkbench
