import Clearance.Json.Read
import Clearance.Json.Value

/-! The caller of an operation. In JSON it is its principal's name alone. -/
namespace Clearance

structure Identity where
  principal : String
deriving DecidableEq, Repr

namespace Identity

/-- The anonymous caller is a principal like any other. -/
def anonymous : Identity := ⟨"anonymous"⟩

def toValue (i : Identity) : Json.Value := .text i.principal

def reader : Json.Reader Identity := fun s =>
  (Json.text "a string" s).map fun (p, rest) => (⟨p⟩, rest)

end Identity
end Clearance
