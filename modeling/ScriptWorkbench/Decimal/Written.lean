import ScriptWorkbench.Decimal.Shortest

/-!
# Written form of binary numbers

A number is written with its shortest digits, positionally when its first digit is near the point
and with an exponent otherwise.  A positional number always shows a point.
-/

set_option autoImplicit false

namespace ScriptWorkbench.Decimal

/-- How a number is laid out. -/
structure Layout where
  /-- Least exponent of a first digit that is written positionally. -/
  least : Int
  /-- Greatest such exponent. -/
  greatest : Int
deriving DecidableEq, Repr

/-- Numbers from `0.00001` up to sixteen digits before the point are positional. -/
def Layout.standard : Layout := ⟨-5, 15⟩

/-- Digits without the zeros at their end. -/
def trimZeros (digits : Text) : Text :=
  (digits.reverse.dropWhile (· = '0')).reverse

/-- A written exponent always has a sign. -/
def exponent (e : Int) : Text :=
  'e' :: (if e < 0 then '-' else '+') :: Text.decimal e.natAbs

/-- Lays out digits whose first one has the exponent `e`. -/
def Layout.place (l : Layout) (digits : Text) (e : Int) : Text :=
  if l.least ≤ e ∧ e ≤ l.greatest then
    if e < 0 then '0' :: '.' :: (List.replicate (-e - 1).toNat '0' ++ digits)
    else
      let whole := e.toNat + 1
      let fraction := digits.drop whole
      digits.take whole ++ List.replicate (whole - digits.length) '0' ++
        '.' :: (if fraction = [] then ['0'] else fraction)
  else
    digits.take 1 ++ (if digits.length ≤ 1 then [] else '.' :: digits.drop 1) ++ exponent e

/-- The written form of a finite binary64 number, given by its bits. -/
def written (l : Layout) (bits : UInt64) : Text :=
  let sign : Text := if isNegative bits then ['-'] else []
  let b := Binary.ofBits bits
  if b.mantissa = 0 then sign ++ l.place ['0'] 0
  else
    let s := b.shortest
    let digits := Text.decimal s.digits
    sign ++ l.place (trimZeros digits) (s.exponent + digits.length - 1)

end ScriptWorkbench.Decimal
