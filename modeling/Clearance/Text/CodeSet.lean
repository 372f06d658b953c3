import Clearance.Text.Hex

/-!
Sets of code points, written as the places where membership changes: no member below the first
place, all from there to the second, none from the second to the third, and so on.
-/
namespace Clearance.Text

structure CodeSet where
  changes : List Nat

namespace CodeSet

def contains (s : CodeSet) (c : Char) : Bool :=
  (s.changes.takeWhile (· ≤ c.toNat)).length % 2 == 1

/-- Reads places written in hexadecimal and separated by spaces and line ends. -/
def ofHex (text : String) : CodeSet :=
  let (places, last) := text.toList.foldl
    (fun (places, current) c =>
      match hexDigit? c with
      | some d => (places, some (16 * current.getD 0 + d))
      | none => (current.toList ++ places, none))
    (([] : List Nat), (none : Option Nat))
  ⟨(last.toList ++ places).reverse⟩

end CodeSet
end Clearance.Text
