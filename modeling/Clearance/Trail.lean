import Clearance.Counter
import Clearance.Event
import Clearance.Grants
import Clearance.Rejection

/-!
What is around an authorizer: the backend that it asks, and the trail that it leaves. The trail keeps
what was asked, rejected, counted and logged, each in the order in which it was done.
-/
namespace Clearance

structure Question where
  identity : Option Identity
  name : String
  kind : Kind
  level : Level
deriving DecidableEq, Repr

/-- A call of a backend. The hint says that several questions about an identity follow. -/
inductive Call where
  | asked (question : Question) (answer : Bool)
  | hinted (identity : Option Identity)
deriving DecidableEq, Repr

abbrev Backend := List Call → Question → Bool

/-- A backend whose answers do not depend on what was asked before. -/
def Backend.steady (answer : Question → Bool) : Backend := fun _ => answer

def GrantTable.backend (t : GrantTable) : Backend :=
  .steady fun q => t.allows q.identity q.kind q.name q.level

structure Trail where
  collector : Collector := {}
  calls : List Call := []
  increments : List Increment := []
  events : List Event := []
deriving DecidableEq, Repr

namespace Trail

def ask (b : Backend) (q : Question) : StateM Trail Bool := fun s =>
  let answer := b s.calls q
  (answer, { s with calls := s.calls ++ [.asked q answer] })

def hint (identity : Option Identity) : StateM Trail Unit :=
  modify fun s => { s with calls := s.calls ++ [.hinted identity] }

def reject (r : Rejection) : StateM Trail Unit :=
  modify fun s => { s with collector := s.collector.reject r.code r.message }

def count (i : Increment) : StateM Trail Unit :=
  modify fun s => { s with increments := s.increments ++ [i] }

def log (e : Event) : StateM Trail Unit :=
  modify fun s => { s with events := s.events ++ [e] }

end Trail
end Clearance
