import ScriptWorkbench.Text.Basic

/-!
# The shortest decimal of a binary number

A finite binary64 number is `mantissa * 2 ^ exponent`.  The decimals that read back as that number
form an interval around it, whose ends belong to it when the mantissa is even.  `shortest` finds the
decimal with the fewest digits inside the interval and, among those, the nearest one.  All of it is
exact arithmetic on natural numbers: both ends and the number itself are kept over one denominator.
-/

set_option autoImplicit false

namespace ScriptWorkbench.Decimal

/-- The absolute value of a finite binary64 number, as `mantissa * 2 ^ exponent`. -/
structure Binary where
  mantissa : Nat
  exponent : Int
  /-- The next number below is only half as far away as the next one above. -/
  narrowBelow : Bool
deriving DecidableEq, Repr

/-- Whether the sign bit of a binary64 number is set. -/
def isNegative (bits : UInt64) : Bool :=
  bits.toNat / Nat.pow 2 63 % 2 = 1

/-- The absolute value of a finite binary64 number. -/
def Binary.ofBits (bits : UInt64) : Binary :=
  let fraction : Nat := bits.toNat % Nat.pow 2 52
  let biased : Nat := bits.toNat / Nat.pow 2 52 % Nat.pow 2 11
  if biased = 0 then ⟨fraction, -1074, false⟩
  else ⟨Nat.pow 2 52 + fraction, Int.ofNat biased - 1075, fraction = 0 ∧ 1 < biased⟩

/-- A number between two ends, all three over one denominator. -/
structure Interval where
  low : Nat
  value : Nat
  high : Nat
  denominator : Nat
  closed : Bool
deriving DecidableEq, Repr

/-- The decimals that read back as a number lie in this interval. -/
def Binary.interval (b : Binary) : Interval :=
  let up := if b.exponent ≥ 2 then Nat.pow 2 (b.exponent - 2).toNat else 1
  let down := if b.exponent ≥ 2 then 1 else Nat.pow 2 (2 - b.exponent).toNat
  let gap := if b.narrowBelow then 1 else 2
  ⟨(4 * b.mantissa - gap) * up, 4 * b.mantissa * up, (4 * b.mantissa + 2) * up, down,
    b.mantissa % 2 = 0⟩

/-- `digits * 10 ^ exponent`. -/
structure Scaled where
  digits : Nat
  exponent : Int
deriving DecidableEq, Repr

/-- Numerator of a scaled decimal over a denominator that makes it whole, with the factor that the
denominator grew by. -/
def Scaled.over (s : Scaled) (denominator : Nat) : Nat × Nat :=
  if s.exponent ≥ 0 then (s.digits * Nat.pow 10 s.exponent.toNat * denominator, 1)
  else (s.digits * denominator, Nat.pow 10 (-s.exponent).toNat)

/-- Whether a decimal lies in an interval. -/
def Interval.holds (i : Interval) (s : Scaled) : Bool :=
  let (n, k) := s.over i.denominator
  if i.closed then i.low * k ≤ n && n ≤ i.high * k else i.low * k < n && n < i.high * k

/-- The exponent of the first digit of a positive number. -/
def Interval.leadingExponent (i : Interval) : Int :=
  if i.denominator ≤ i.value then ((Nat.toDigits 10 (i.value / i.denominator)).length : Int) - 1
  else -(((List.range 400).find? fun k => i.denominator ≤ i.value * Nat.pow 10 k).getD 0 : Nat)

/-- The neighbours of the number on the grid of multiples of `10 ^ exponent`, the nearer first; of
two equally near ones the even one. -/
def Interval.neighbours (i : Interval) (exponent : Int) : List Scaled :=
  let (numerator, denominator) :=
    if exponent ≥ 0 then (i.value, i.denominator * Nat.pow 10 exponent.toNat)
    else (i.value * Nat.pow 10 (-exponent).toNat, i.denominator)
  let below := numerator / denominator
  let rest := 2 * (numerator % denominator)
  if rest < denominator ∨ (rest = denominator ∧ below % 2 = 0) then
    [⟨below, exponent⟩, ⟨below + 1, exponent⟩]
  else [⟨below + 1, exponent⟩, ⟨below, exponent⟩]

/-- The nearest decimal of a positive number among those with the fewest digits that read back as
it.  Seventeen digits are always enough. -/
def Binary.shortest (b : Binary) : Scaled :=
  let i := b.interval
  let top := i.leadingExponent
  let candidates := (List.range 17).flatMap fun (k : Nat) => i.neighbours (top - k)
  (candidates.find? i.holds).getD ⟨0, 0⟩

end ScriptWorkbench.Decimal
