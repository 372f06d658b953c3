/-!
The shortest decimal of a binary64 number: of the decimals that round to the number, those with the
fewest digits, and of these the nearest. All arithmetic is on natural numbers.
-/
namespace Clearance.Decimal

/-- Which of two decimals that are equally near is taken: the one with the even last digit, or the
greater. -/
inductive Tie where
  | even
  | up
deriving DecidableEq, Repr

/-- Whether a number in the middle goes down to this one. -/
def Tie.goesDown (t : Tie) (down : Nat) : Bool :=
  match t with
  | .even => down % 2 == 0
  | .up => false

/-- The number `significand * 2 ^ exponent`, with the half gaps to its neighbours: both are half a
unit of the last place, but below a power of two the gap is half as wide. -/
structure Binary where
  significand : Nat
  exponent : Int
  narrowBelow : Bool

/-- The least significand of 53 binary digits. As many numbers share an exponent. -/
def unit : Nat := 4503599627370496

def Binary.ofBits (bits : UInt64) : Binary :=
  let fraction : Nat := bits.toNat % unit
  let place : Nat := bits.toNat / unit % 2048
  if place = 0 then ⟨fraction, -1074, false⟩
  else ⟨unit + fraction, (place : Int) - 1075, fraction = 0 ∧ 1 < place⟩

/-- The number `0.digits * 10 ^ point`, its first digit not zero. -/
structure Digits where
  digits : List Nat
  point : Int
deriving Repr, DecidableEq

def scaled (num den : Nat) (power : Int) : Nat × Nat :=
  if 0 ≤ power then (num * Nat.pow 10 power.toNat, den) else (num, den * Nat.pow 10 (-power).toNat)

def width (n : Nat) : Nat := (Nat.toDigits 10 n).length

/-- The place `p` for which `10 ^ (p - 1) ≤ num / den < 10 ^ p`. -/
def place (num den : Nat) : Int :=
  let guess : Int := width num - width den
  let (a, b) := scaled num den (-guess)
  if b ≤ a then guess + 1 else guess

/-- Of the two points of a grid beside `num / den`, the nearer of those that lie in the interval.
The interval is given by its distances from the number, in parts of the same denominator. -/
def gridPoint? (tie : Tie) (num den below above : Nat) (closed : Bool) : Option Nat :=
  let down := num / den
  let under := num % den
  let beyond := den - under
  let fits (distance reach : Nat) : Bool := distance < reach || (closed && distance == reach)
  let lower := under == 0 || fits under below
  let upper := fits beyond above
  if lower && upper then
    some (if under < beyond || (under == beyond && tie.goesDown down) then down else down + 1)
  else if lower then some down
  else if upper then some (down + 1)
  else none

def Binary.shortest (tie : Tie) (b : Binary) : Digits :=
  -- in quarters of the last place: the number is 4 m, its upper gap 2, its lower gap 2 or 1
  let two := b.exponent - 2
  let up := if 0 ≤ two then Nat.pow 2 two.toNat else 1
  let den := if 0 ≤ two then 1 else Nat.pow 2 (-two).toNat
  let num := 4 * b.significand * up
  let above := 2 * up
  let below := if b.narrowBelow then up else 2 * up
  let point := place num den
  let grids := (List.range 17).filterMap fun k =>
    let power := (k + 1 : Nat) - point
    let (n, d) := scaled num den power
    let lift := if 0 ≤ power then Nat.pow 10 power.toNat else 1
    (gridPoint? tie n d (below * lift) (above * lift) (b.significand % 2 == 0)).map fun found =>
      let text := Nat.toDigits 10 found
      let carried : Int := if k + 1 < text.length then 1 else 0
      let digits := text.map fun c => c.toNat - '0'.toNat
      (⟨(digits.reverse.dropWhile (· == 0)).reverse, point + carried⟩ : Digits)
  grids.headD ⟨[], point⟩

end Clearance.Decimal
