import Clearance.Check
import Clearance.Counter.Registry

/-!
Checks one after another. They share an authorizer with its backend, a registry and the log. A document
that cannot be read is an error of its own check, for which nothing is evaluated.
-/
namespace Clearance

structure Inquiry where
  document : String
  principal : Option String := none
deriving DecidableEq, Repr

/-- What checks leave behind: the counters, the calls of the backend, and the log. -/
structure Journal where
  registry : Counter.Registry := {}
  calls : List Call := []
  events : List Event := []

namespace Authorizer

def checkNext (a : Authorizer) (s : Settings) (x : Inquiry) :
    StateM Journal (Except Document.Error Outcome) := fun j =>
  match Document.parse x.document with
  | .error e => (.error e, j)
  | .ok d =>
    let (decision, t) := (a.evaluate (some d.operation) (some (caller x.principal)) s.security).run
      { calls := j.calls, events := j.events }
    let evaluation := decision.map fun decision =>
      { decision
        calls := t.calls.drop j.calls.length
        rejections := t.collector.rejections
        increments := t.increments
        events := t.events.drop j.events.length }
    (.ok ⟨evaluation⟩,
      { registry := j.registry.apply t.increments, calls := t.calls, events := t.events })

def checkAll (a : Authorizer) (s : Settings) (xs : List Inquiry) :
    StateM Journal (List (Except Document.Error Outcome)) :=
  xs.mapM (a.checkNext s)

end Authorizer
end Clearance
