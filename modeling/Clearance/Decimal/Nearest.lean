import Clearance.Decimal.Shortest

/-! The binary64 number nearest to a decimal; of two that are equally near, the even one. -/
namespace Clearance.Decimal

/-- A ratio rounded to a whole number, a tie to the even one. -/
def roundEven (num den : Nat) : Nat :=
  let down := num / den
  let twice := 2 * (num % den)
  if twice < den ∨ (twice = den ∧ down % 2 = 0) then down else down + 1

/-- The power of two that leaves 53 binary digits of a ratio before the point, or the least power
that a number has. -/
def binaryPlace (num den : Nat) : Int :=
  let guess : Int := (Nat.log2 num : Int) - Nat.log2 den - 53
  let scaled (e : Int) : Nat :=
    if 0 ≤ e then num / (den * Nat.pow 2 e.toNat) else num * Nat.pow 2 (-e).toNat / den
  let e := if scaled guess < 2 * unit then guess else guess + 1
  max e (-1074)

def bitsOfRatio (num den : Nat) : UInt64 :=
  let e := binaryPlace num den
  let digits :=
    if 0 ≤ e then roundEven num (den * Nat.pow 2 e.toNat)
    else roundEven (num * Nat.pow 2 (-e).toNat) den
  UInt64.ofNat (min ((e + 1074).toNat * unit + digits) (2047 * unit))

/-- The number nearest to `n * 10 ^ power`. Beyond 400 places it is infinite or zero. -/
def nearest (n : Nat) (power : Int) : Float :=
  let top := power + width n
  if n = 0 ∨ top < -400 then 0
  else if 400 < top then Float.ofBits 0x7FF0000000000000
  else
    let (num, den) := scaled n 1 power
    Float.ofBits (bitsOfRatio num den)

end Clearance.Decimal
