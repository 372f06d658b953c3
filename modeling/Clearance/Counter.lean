import Clearance.Table

/-!
Counters. A counter is known by its name and its labels; the order in which labels are given does
not matter to which counter it is.
-/
namespace Clearance

structure Label where
  key : String
  value : String
deriving DecidableEq, Repr

instance : Ord Label := ⟨compareLex (compareOn Label.key) (compareOn Label.value)⟩

instance : Std.TransOrd Label :=
  inferInstanceAs (Std.TransCmp (compareLex (compareOn Label.key) (compareOn Label.value)))

/-- One step of a counter, its labels in the order in which they were given. -/
structure Increment where
  name : String
  labels : List Label
deriving DecidableEq, Repr

namespace Counter

structure Key where
  name : String
  labels : List Label
deriving DecidableEq, Repr

instance : Ord Key := ⟨compareLex (compareOn Key.name) (compareOn Key.labels)⟩

instance : Std.TransOrd Key :=
  inferInstanceAs (Std.TransCmp (compareLex (compareOn Key.name) (compareOn Key.labels)))

end Counter

def Increment.key (i : Increment) : Counter.Key :=
  ⟨i.name, i.labels.mergeSort fun a b => (compare a b).isLE⟩

end Clearance
