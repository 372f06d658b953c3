import Clearance.Authorizer
import Clearance.Counter.Shared

/-!
An authorizer in use. Those who submit operations to it share its backend, a registry and the log. In a
session one submission follows another, and each says which collector it is handed. Callers submit at
the same time, each one of its own submissions after another, with a new collector every time.
-/
namespace Clearance

structure Submission where
  operation : Option Operation
  identity : Option Identity
  policy : Policy
  /-- Whether the decision is asked for, or the rejections alone. -/
  decides : Bool := true
  /-- The number of the collector that a session keeps for it. -/
  collector : Nat := 0

/-- What a submission gets back: the decision, and what was added to the collector. -/
structure Receipt where
  decision : Option Decision
  rejections : List Rejection
deriving DecidableEq, Repr

structure Session where
  registry : Counter.Registry := {}
  collectors : Nat → Collector := fun _ => {}
  calls : List Call := []
  events : List Event := []

/-- What a caller has got back, the increments of its evaluations, and the submissions left to it. -/
structure Caller where
  receipts : List Receipt := []
  writer : Counter.Writer := { left := [] }
  left : List Submission

structure Callers where
  registry : Counter.Registry := {}
  calls : List Call := []
  events : List Event := []
  callers : List Caller

namespace Authorizer

def submit (a : Authorizer) (x : Submission) : StateM Trail (Option Decision) :=
  if x.decides then a.evaluate x.operation x.identity x.policy
  else do
    a.authorize x.operation x.identity x.policy
    return none

def serve (a : Authorizer) (x : Submission) : StateM Session Receipt := fun s =>
  let held := s.collectors x.collector
  let (decision, t) :=
    (a.submit x).run { collector := held, calls := s.calls, events := s.events }
  (⟨decision, t.collector.rejections.drop held.size⟩,
    { registry := s.registry.apply t.increments
      collectors := fun n => if n = x.collector then t.collector else s.collectors n
      calls := t.calls
      events := t.events })

def serveAll (a : Authorizer) (xs : List Submission) : StateM Session (List Receipt) :=
  xs.mapM a.serve

end Authorizer

/-- Whether the increments of its last evaluation are still to be added. -/
def Caller.isWriting (c : Caller) : Bool := c.writer.missed.isSome || !c.writer.left.isEmpty

def Caller.isDone (c : Caller) : Bool := !c.isWriting && c.left.isEmpty

namespace Callers

def start (programs : List (List Submission)) : Callers where
  callers := programs.map fun left => { left }

/-- A turn of one caller: a step of an increment or, when all of them are added, its next evaluation. -/
def step (a : Authorizer) (m : Callers) (j : Nat) : Callers :=
  match m.callers[j]? with
  | none => m
  | some c =>
    if c.isWriting then
      let (registry, writer) := c.writer.step m.registry false
      { m with registry, callers := m.callers.set j { c with writer } }
    else
      match c.left with
      | [] => m
      | x :: left =>
        -- no backend looks at the registry, so that the increments may as well wait for the last answer
        let (decision, t) := (a.submit x).run { calls := m.calls, events := m.events }
        let c' : Caller :=
          { receipts := c.receipts ++ [⟨decision, t.collector.rejections⟩]
            writer := { c.writer with left := t.increments }
            left }
        { m with calls := t.calls, events := t.events, callers := m.callers.set j c' }

def run (a : Authorizer) (m : Callers) (turns : List Nat) : Callers := turns.foldl (step a) m

def isFinished (m : Callers) : Bool := m.callers.all Caller.isDone

end Callers
end Clearance
