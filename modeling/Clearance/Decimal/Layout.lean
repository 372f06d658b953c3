import Clearance.Decimal.Shortest
import Clearance.Decimal.Word

/-! How the digits of a number are laid out as text. -/
namespace Clearance.Decimal

/-- Which decimal stands for a number, whether it has an exponent, and how a whole number ends. -/
structure Layout where
  tie : Tie
  /-- Whether `d.ddd * 10 ^ e` is written positionally, from `e`. -/
  positional : Int → Bool
  wholeMark : String

private def digitText (ds : List Nat) : String := String.ofList (ds.map Nat.digitChar)

private def zeros (n : Nat) : String := String.ofList (List.replicate n '0')

def scientific (d : Digits) : String :=
  let e := d.point - 1
  let mantissa := match d.digits with
    | [] => "0"
    | [x] => digitText [x]
    | x :: xs => digitText [x] ++ "." ++ digitText xs
  mantissa ++ (if 0 ≤ e then "e+" else "e-") ++ toString e.natAbs

def Layout.digits (l : Layout) (d : Digits) : String :=
  let count : Int := d.digits.length
  if !l.positional (d.point - 1) then scientific d
  else if d.point ≤ 0 then "0." ++ zeros (-d.point).toNat ++ digitText d.digits
  else if count ≤ d.point then digitText d.digits ++ zeros (d.point - count).toNat ++ l.wholeMark
  else digitText (d.digits.take d.point.toNat) ++ "." ++ digitText (d.digits.drop d.point.toNat)

def Layout.number (l : Layout) (x : Float) : String :=
  if x.isNaN then "NaN"
  else
    let sign := if signedLimit ≤ x.toBits.toNat then "-" else ""
    if x.isInf then sign ++ "inf"
    else
      let size := Binary.ofBits x.toBits
      if size.significand = 0 then sign ++ "0" ++ l.wholeMark
      else sign ++ l.digits (size.shortest l.tie)

end Clearance.Decimal
