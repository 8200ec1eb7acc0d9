import ScriptWorkbench.Text.Hidden
import ScriptWorkbench.Text.Basic

/-!
# Texts as quoted literals

A quoted literal puts a text on one line between double quotes.  Tab, line feed, carriage return,
NUL, the double quote and the backslash have short escapes; every other hidden character is written
as its code in braces.  `unquote?` reads a literal back.
-/

set_option autoImplicit false

namespace ScriptWorkbench.Text

/-- How one character is written inside a literal. -/
def escapeChar (c : Char) : Text :=
  if c = '\x00' then ['\x5c', '0']
  else if c = '\t' then ['\x5c', 't']
  else if c = '\n' then ['\x5c', 'n']
  else if c = '\r' then ['\x5c', 'r']
  else if c = '\x22' then ['\x5c', '\x22']
  else if c = '\x5c' then ['\x5c', '\x5c']
  else if isHidden c then ['\x5c', 'u', '\x7b'] ++ Nat.toDigits 16 c.toNat ++ ['\x7d']
  else [c]

/-- A text as a quoted literal. -/
def quoted (t : Text) : Text :=
  '\x22' :: t.flatMap escapeChar ++ ['\x22']

/-- The value of a hexadecimal digit. -/
def hexValue? (c : Char) : Option Nat :=
  if '0' ≤ c ∧ c ≤ '9' then some (c.toNat - '0'.toNat)
  else if 'a' ≤ c ∧ c ≤ 'f' then some (c.toNat - 'a'.toNat + 10)
  else if 'A' ≤ c ∧ c ≤ 'F' then some (c.toNat - 'A'.toNat + 10)
  else none

/-- The character of an escape that is one letter after its backslash. -/
def shortEscape? (c : Char) : Option Char :=
  if c = '0' then some '\x00'
  else if c = 't' then some '\t'
  else if c = 'n' then some '\n'
  else if c = 'r' then some '\r'
  else if c = '\x22' then some '\x22'
  else if c = '\x5c' then some '\x5c'
  else none

/-- Where the reader of a literal stands: at a character, after a backslash, after the `u` of an
escape by code, or inside its braces with the code read so far. -/
inductive LiteralPlace
  | plain
  | escape
  | brace
  | code (value : Nat)
deriving DecidableEq, Repr

/-- Reads the characters of a literal up to its closing quote, which has to end the input. -/
def readLiteral : LiteralPlace → Text → Option Text
  | .plain, ['\x22'] => some []
  | .plain, c :: t =>
    if c = '\x22' then none
    else if c = '\x5c' then readLiteral .escape t
    else (readLiteral .plain t).map (c :: ·)
  | .escape, c :: t =>
    if c = 'u' then readLiteral .brace t
    else match shortEscape? c with
      | some d => (readLiteral .plain t).map (d :: ·)
      | none => none
  | .brace, c :: t => if c = '\x7b' then readLiteral (.code 0) t else none
  | .code n, c :: t =>
    if c = '\x7d' then (readLiteral .plain t).map (Char.ofNat n :: ·)
    else match hexValue? c with
      | some d => readLiteral (.code (16 * n + d)) t
      | none => none
  | _, [] => none

/-- The text of a quoted literal, if the input is one. -/
def unquote? : Text → Option Text
  | c :: t => if c = '\x22' then readLiteral .plain t else none
  | [] => none

end ScriptWorkbench.Text
