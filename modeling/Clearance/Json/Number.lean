import Clearance.Decimal.Nearest
import Clearance.Decimal.Word
import Clearance.Json.Scan

/-!
Numbers in JSON. No field holds one: a number is read to say what stands where something else is
expected, or to be skipped. An integer within 64 bits is shown exactly, any other number as the
binary64 that the digits within 64 bits and the power of ten after them give.
-/
namespace Clearance.Json

def digits (s : List Char) : List Char × List Char := s.span Char.isDigit

/-- Digits are taken as long as the number stays within `limit`; how many are left is told. -/
def accumulate (limit : Nat) : Nat → List Char → Nat × Nat
  | n, [] => (n, 0)
  | n, d :: ds =>
    let m := 10 * n + (d.toNat - '0'.toNat)
    if m ≤ limit then accumulate limit m ds else (n, ds.length + 1)

def powerLimit : Nat := 2147483647

def tenTo (n : Nat) : Float := Decimal.nearest 1 n

/-- `x * 10 ^ power`, in steps within the range of the powers of ten; none beyond the range of
numbers. -/
def scale : Nat → Float → Int → Option Float
  | 0, x, _ => some x
  | steps + 1, x, power =>
    if power.natAbs ≤ 308 then
      if 0 ≤ power then
        let y := x * tenTo power.natAbs
        if y.isInf then none else some y
      else some (x / tenTo power.natAbs)
    else if x == 0 then some x
    else if 0 ≤ power then none
    else scale steps (x / tenTo 308) (power + 308)

/-- The fault of a text that goes on with none of the digits that must follow. -/
def noDigit (atEnd : Cause) : List Char → Fault
  | [] => .past atEnd []
  | s => .past .invalidNumber s

def wholeDigits (atEnd : Cause) : Reader (List Char) := fun s =>
  match digits s with
  | ([], rest) => .error (noDigit atEnd rest)
  | ('0' :: _ :: _, _) => .error (.past .invalidNumber (s.drop 1))
  | (ds, rest) => .ok (ds, rest)

def fractionDigits (atEnd : Cause) : Reader (List Char)
  | '.' :: s =>
    match digits s with
    | ([], rest) => .error (noDigit atEnd rest)
    | (ds, rest) => .ok (ds, rest)
  | s => .ok ([], s)

/-- The start of an exponent: whether it is negative, and the text from its first digit. -/
def exponentSign? : List Char → Option (Bool × List Char)
  | 'e' :: '-' :: s | 'E' :: '-' :: s => some (true, s)
  | 'e' :: '+' :: s | 'E' :: '+' :: s => some (false, s)
  | 'e' :: s | 'E' :: s => some (false, s)
  | _ => none

def signed (negative : Bool) (x : Float) : Float := if negative then -x else x

def realOf (negative : Bool) (n : Nat) (power : Int) (rest : List Char) :
    Except Fault (Found × List Char) :=
  match scale (power.natAbs / 308 + 1) n.toUInt64.toFloat power with
  | some x => .ok (.real (signed negative x), rest)
  | none => .error (.before .numberTooLarge rest)

/-- The exponent of `n * 10 ^ power`. One that is itself too large makes zero, or none. -/
def withExponent (negative : Bool) (n : Nat) (power : Int) (down : Bool) (s : List Char) :
    Except Fault (Found × List Char) :=
  match digits s with
  | ([], rest) => .error (noDigit .endInValue rest)
  | (ds, rest) =>
    let (e, left) := accumulate powerLimit 0 ds
    if left = 0 then realOf negative n (if down then power - e else power + e) rest
    else if n ≠ 0 ∧ down = false then
      .error (.before .numberTooLarge (s.drop (ds.length - left + 1)))
    else .ok (.real (signed negative 0), rest)

def number (negative : Bool) : Reader Found := fun s => do
  let (ws, rest) ← wholeDigits .endInValue s
  let (n, dropped) := accumulate Decimal.wordLimit 0 ws
  let (fs, rest') ← fractionDigits .endInValue rest
  let (m, unused) := accumulate Decimal.wordLimit n fs
  let power : Int := dropped - (fs.length - unused)
  match exponentSign? rest' with
  | some (down, rest) => withExponent negative m power down rest
  | none =>
    if dropped ≠ 0 ∨ fs ≠ [] then realOf negative m power rest'
    else if negative = false then .ok (.integer n, rest)
    else if n ≠ 0 ∧ n ≤ Decimal.signedLimit then .ok (.integer (-n), rest)
    else .ok (.real (-n.toUInt64.toFloat), rest)

/-- Skips a number after its sign; its size does not matter. -/
def skipNumber (s : List Char) : Except Fault (List Char) := do
  let (_, rest) ← wholeDigits .invalidNumber s
  let (_, rest) ← fractionDigits .invalidNumber rest
  match exponentSign? rest with
  | none => .ok rest
  | some (_, rest) =>
    match digits rest with
    | ([], rest) => .error (noDigit .invalidNumber rest)
    | (_, rest) => .ok rest

end Clearance.Json
