import Clearance.Authorizer
import Clearance.Files
import Clearance.Operation.Document
import Clearance.Settings

/-!
Checking an operation document: the authorizer that the settings describe, and the outcome for a
principal.
-/
namespace Clearance

inductive GrantsError where
  | unreadable (path : String) (fault : ReadFault)
  | malformed (path : String) (cause : GrantTable.Error)

/-- The reason why a table is malformed is told twice, on its own and as its own cause. -/
def GrantsError.message : GrantsError → String
  | .unreadable path fault => s!"reading grant table {path}: {fault.message}"
  | .malformed path e => s!"parsing grant table {path}: {e.message}: {e.cause.message}"

def GrantTable.load (files : Files) (path : String) : Except GrantsError GrantTable := do
  let t ← (files.readText path).mapError (.unreadable path)
  (GrantTable.parse t).mapError (.malformed path)

/-- Without a table nothing is granted; with authorization disabled nothing is asked. -/
def Settings.authorizer (s : Settings) (grants : Option GrantTable) : Authorizer × List Event :=
  if s.authorization.enabled then
    let events := if grants.isSome then [] else [.noGrants]
    (⟨some (grants.getD {}).backend⟩, events)
  else (⟨none⟩, [.authorizationDisabled])

/-- The outcome of a check; there is no evaluation where authorization is disabled. -/
structure Outcome where
  evaluation : Option Evaluation

namespace Outcome

def rejections (o : Outcome) : List Rejection := (o.evaluation.map (·.rejections)).getD []

def decision (o : Outcome) : Option Decision := o.evaluation.map (·.decision)

def increments (o : Outcome) : List Increment := (o.evaluation.map (·.increments)).getD []

def events (o : Outcome) : List Event := (o.evaluation.map (·.events)).getD []

def isAllowed (o : Outcome) : Bool := o.rejections.isEmpty

end Outcome

/-- A caller without a principal is the anonymous one. -/
def caller (principal : Option String) : Identity := (principal.map Identity.mk).getD .anonymous

def check (a : Authorizer) (s : Settings) (document : String) (principal : Option String) :
    Except Document.Error Outcome := do
  let d ← Document.parse document
  .ok ⟨a.evaluate? (some d.operation) (some (caller principal)) s.security⟩

def checkFailure (e : Document.Error) : String := "parsing operation document: " ++ e.message

end Clearance
