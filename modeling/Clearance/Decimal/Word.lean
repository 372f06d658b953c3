/-! The range of integers of 64 bits. -/
namespace Clearance.Decimal

def wordLimit : Nat := 18446744073709551615

/-- The greatest size of a negative integer; a positive one is less. -/
def signedLimit : Nat := 9223372036854775808

def fitsSigned (i : Int) : Bool := -(signedLimit : Int) ≤ i && i < signedLimit

end Clearance.Decimal
