import Clearance.Counter

/-!
A registry counts in memory. An increment is a look-up that adds to a counter that is there, and,
where there is none, a second step that makes it and adds. Between the two others may take steps.
-/
namespace Clearance.Counter

structure Registry where
  counts : Table Key Nat := .empty
deriving DecidableEq

namespace Registry

/-- A counter that nobody has made counts as zero. -/
def value (r : Registry) (k : Key) : Nat := (r.counts.get? k).getD 0

/-- The first step: adds to a counter that is there. -/
def bump? (r : Registry) (k : Key) : Option Registry :=
  (r.counts.get? k).map fun n => ⟨r.counts.put k (n + 1)⟩

/-- The second step: adds to a counter, which starts from zero if nobody has made it meanwhile. -/
def insertBump (r : Registry) (k : Key) : Registry :=
  ⟨r.counts.put k (r.value k + 1)⟩

def increment (r : Registry) (i : Increment) : Registry :=
  (r.bump? i.key).getD (r.insertBump i.key)

def apply (r : Registry) (is : List Increment) : Registry := is.foldl increment r

def count (r : Registry) (i : Increment) : Nat := r.value i.key

def snapshot (r : Registry) : List (Key × Nat) := r.counts.entries

def total (r : Registry) (name : String) : Nat :=
  (r.snapshot.filter (·.1.name == name)).foldl (fun n counter => n + counter.2) 0

end Registry
end Clearance.Counter
