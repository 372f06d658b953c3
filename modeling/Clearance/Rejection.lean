import Clearance.Json.Value

/-! Rejections of an operation, collected in the order in which they were found. -/
namespace Clearance

structure Rejection where
  code : String
  message : String
deriving DecidableEq, Repr

def Rejection.toValue (r : Rejection) : Json.Value :=
  .object [("code", .text r.code), ("message", .text r.message)]

structure Collector where
  rejections : List Rejection := []
deriving DecidableEq, Repr

namespace Collector

def append (c : Collector) (l : List Rejection) : Collector := ⟨c.rejections ++ l⟩

def reject (c : Collector) (code message : String) : Collector := c.append [⟨code, message⟩]

def size (c : Collector) : Nat := c.rejections.length

def isEmpty (c : Collector) : Bool := c.rejections.isEmpty

def hasErrors (c : Collector) : Bool := !c.isEmpty

def messages (c : Collector) : List String := c.rejections.map (·.message)

def toValue (c : Collector) : Json.Value := .list (c.rejections.map Rejection.toValue)

end Collector
end Clearance
