import ScriptWorkbench.Json.Number
import ScriptWorkbench.Text.Literal

/-!
# Strings in JSON texts

A string is read in two steps.  `pieces` splits what stands between the quotes into characters and
16-bit units written by their code; this is all that has to be right in a string that is skipped.
`joinPieces` puts the units together: a character beyond 16 bits takes two of them, a high one and
a low one, and neither may stand alone.
-/

set_option autoImplicit false

namespace ScriptWorkbench.Json

/-- A part of a string. -/
inductive Piece
  | char (c : Char)
  /-- A 16-bit unit that was written by its code. -/
  | unit (n : Nat)
deriving DecidableEq, Repr

/-- The value of four hexadecimal digits. -/
def hexUnit? (a b c d : Char) : Option Nat := do
  let a ← Text.hexValue? a
  let b ← Text.hexValue? b
  let c ← Text.hexValue? c
  let d ← Text.hexValue? d
  return ((a * 16 + b) * 16 + c) * 16 + d

/-- The character of an escape that is one letter after its backslash. -/
def shortEscape? (c : Char) : Option Char :=
  if c = '\x22' ∨ c = '\x5c' ∨ c = '/' then some c
  else if c = 'b' then some '\x08'
  else if c = 'f' then some '\x0c'
  else if c = 'n' then some '\n'
  else if c = 'r' then some '\r'
  else if c = 't' then some '\t'
  else none

/-- The parts of a string up to its closing quote, and either the text after the quote or what is
wrong after those parts.  An escape by code needs four more bytes; fewer mean that the text ends. -/
def pieces : Text → List Piece × Except Fault Text
  | [] => ([], .error .ended)
  | ['\x5c'] => ([], .error .ended)
  | '\x5c' :: 'u' :: a :: b :: c :: d :: t =>
    match hexUnit? a b c d with
    | some n =>
      let (ps, ending) := pieces t
      (.unit n :: ps, ending)
    | none => ([], .error .malformed)
  | '\x5c' :: c :: t =>
    if c = 'u' then ([], .error (if Text.byteSize t < 4 then .ended else .malformed))
    else match shortEscape? c with
      | some e =>
        let (ps, ending) := pieces t
        (.char e :: ps, ending)
      | none => ([], .error .malformed)
  | c :: t =>
    if c = '\x22' then ([], .ok t)
    else if c.toNat < 0x20 then ([], .error .malformed)
    else
      let (ps, ending) := pieces t
      (.char c :: ps, ending)

/-- Whether a unit is the first of two. -/
def isHigh (n : Nat) : Bool := 0xD800 ≤ n && n < 0xDC00

/-- Whether a unit is the second of two. -/
def isLow (n : Nat) : Bool := 0xDC00 ≤ n && n < 0xE000

/-- The character that two units stand for. -/
def joinUnits (high low : Nat) : Char :=
  Char.ofNat (0x10000 + (high - 0xD800) * 0x400 + (low - 0xDC00))

/-- The text of a string from its parts.  If the string breaks off just after a high unit, what
broke it off is the fault. -/
def joinPieces {α : Type} (ending : Except Fault α) : List Piece → Except Fault Text
  | [] => ending.map fun _ => []
  | .char c :: ps => (joinPieces ending ps).map (c :: ·)
  | .unit n :: ps =>
    if isLow n then .error .malformed
    else if isHigh n then
      match ps with
      | [] => match ending with
        | .error f => .error f
        | .ok _ => .error .malformed
      | .unit m :: ps =>
        if isLow m then (joinPieces ending ps).map (joinUnits n m :: ·) else .error .malformed
      | .char _ :: _ => .error .malformed
    else (joinPieces ending ps).map (Char.ofNat n :: ·)

end ScriptWorkbench.Json
