import ScriptWorkbench.Text.Basic

/-!
# Numbers in JSON texts

A number is first read as a `Numeral`: its sign, its digits, its fraction and its exponent.  The
value of a numeral is a natural number up to `2 ^ 64 - 1`, a negative integer down to `-2 ^ 63`, or
a binary64 number.  A binary64 number keeps as many digits as fit into 64 bits and scales the rest
by a power of ten; one that is too large has no value.
-/

set_option autoImplicit false

namespace ScriptWorkbench.Json

/-- What can be wrong with a JSON text. -/
inductive Fault
  /-- The text ends too early. -/
  | ended
  /-- A character is out of place. -/
  | malformed
deriving DecidableEq, Repr

/-- The parts of a written number. -/
structure Numeral where
  negative : Bool
  whole : Text
  /-- The digits after the point; none if there is no point. -/
  fraction : Text
  /-- Sign and digits of the exponent, if one is written. -/
  exponent : Option (Bool × Text)
  /-- Whether a point or an exponent is written. -/
  isInteger : Bool
deriving DecidableEq, Repr

/-- The value of a number. -/
inductive Number
  | natural (n : Nat)
  /-- The integer `-(n + 1)`. -/
  | negative (n : Nat)
  /-- A binary64 number, by its bits. -/
  | real (bits : UInt64)
deriving DecidableEq, Repr

/-- Splits digits off a text.  There has to be one. -/
def digits (t : Text) : Except Fault (Text × Text) :=
  match t with
  | [] => .error .ended
  | c :: _ =>
    if c.isDigit then .ok (t.takeWhile Char.isDigit, t.dropWhile Char.isDigit)
    else .error .malformed

/-- The digits before the point: a single zero, or digits that do not begin with one. -/
def wholeDigits (t : Text) : Except Fault (Text × Text) :=
  match digits t with
  | .ok ('0' :: _ :: _, _) => .error .malformed
  | r => r

/-- The fraction of a number, if a point comes next. -/
def fractionDigits : Text → Except Fault (Option Text × Text)
  | '.' :: t => (digits t).map fun (f, rest) => (some f, rest)
  | t => .ok (none, t)

/-- The sign of an exponent; a missing one is positive. -/
def exponentSign : Text → Bool × Text
  | '+' :: t => (false, t)
  | '-' :: t => (true, t)
  | t => (false, t)

/-- The exponent of a number, if one comes next. -/
def exponentDigits : Text → Except Fault (Option (Bool × Text) × Text)
  | [] => .ok (none, [])
  | c :: t =>
    if c = 'e' ∨ c = 'E' then
      let (sign, t) := exponentSign t
      (digits t).map fun (e, rest) => (some (sign, e), rest)
    else .ok (none, c :: t)

/-- Reads a number at the front of a text. -/
def Numeral.read (t : Text) : Except Fault (Numeral × Text) := do
  let (negative, t) : Bool × Text := match t with
    | '-' :: t => (true, t)
    | t => (false, t)
  let (whole, t) ← wholeDigits t
  let (fraction, t) ← fractionDigits t
  let (exponent, t) ← exponentDigits t
  return (⟨negative, whole, fraction.getD [], exponent, fraction.isNone && exponent.isNone⟩, t)

namespace Numeral

/-- The greatest whole number that 64 bits hold. -/
def maxNatural : Nat := Nat.pow 2 64 - 1

/-- The greatest exponent that is told apart from an endless one. -/
def maxExponent : Nat := Nat.pow 2 31 - 1

/-- Appends decimal digits to a number as long as it fits into 64 bits; also says how many digits
were left over. -/
def accumulate (n : Nat) : Text → Nat × Nat
  | [] => (n, 0)
  | c :: t =>
    let m := Nat.ofDigitChars 10 [c] n
    if m ≤ maxNatural then accumulate m t else (n, t.length + 1)

/-- The digits of a numeral that fit into 64 bits, with the power of ten that they count. -/
def significand (x : Numeral) : Nat × Int :=
  let (n, left) := accumulate 0 x.whole
  let (m, dropped) := accumulate n x.fraction
  (m, (left : Int) - ((x.fraction.length - dropped : Nat) : Int))

/-- A power of ten up to the greatest one below infinity. -/
def powerOfTen (k : Nat) : Float :=
  Float.ofScientific 1 false k

/-- Divides by a power of ten, in steps of the greatest one. -/
def scaleDown (x : Float) (k : Nat) : Float :=
  if k ≤ 308 then x / powerOfTen k
  else if x == 0 then x
  else scaleDown (x / powerOfTen 308) (k - 308)
termination_by k

/-- A whole number times a power of ten as a binary64 number, unless it is too large. -/
def scale (n : Nat) (e : Int) : Option Float :=
  let x := (UInt64.ofNat n).toFloat
  if e < 0 then some (scaleDown x e.natAbs)
  else if e.toNat ≤ 308 then
    let y := x * powerOfTen e.toNat
    if y.isInf then none else some y
  else if n = 0 then some x else none

/-- The absolute value of a numeral as a binary64 number, unless it is too large. -/
def real? (x : Numeral) : Option Float :=
  let (n, e) := x.significand
  match x.exponent with
  | none => scale n e
  | some (sign, digits) =>
    let written := Text.digitsValue digits
    if maxExponent < written then
      if n ≠ 0 ∧ !sign then none else some 0
    else scale n (if sign then e - written else e + written)

/-- The value of a numeral. -/
def value (x : Numeral) : Except Fault Number :=
  let n := Text.digitsValue x.whole
  if x.isInteger ∧ !x.negative ∧ n ≤ maxNatural then .ok (.natural n)
  else if x.isInteger ∧ x.negative ∧ 0 < n ∧ n ≤ Nat.pow 2 63 then .ok (.negative (n - 1))
  else match x.real? with
    | none => .error .malformed
    | some y => .ok (.real (if x.negative then -y else y).toBits)

end Numeral

end ScriptWorkbench.Json
