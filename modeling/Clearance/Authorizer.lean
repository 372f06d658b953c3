import Clearance.Operation
import Clearance.Trail

/-!
The authorizer decides whether an operation may go on. It asks a backend about the account and about
every application, all of them, so that whoever is denied sees every reason at once. What it asks,
rejects, counts and logs on the way goes to the trail.
-/
namespace Clearance

structure Decision where
  account : Option String
  accountAllowed : Bool
  /-- The applications in the order of the questions, with the answers. -/
  applications : List (String × Bool)
  allowed : Bool
deriving DecidableEq, Repr

namespace Decision

def denied (d : Decision) : List String := (d.applications.filter (!·.2)).map Prod.fst

def toValue (d : Decision) : Json.Value :=
  .object [
    ("account", .ofOption .text d.account),
    ("account_allowed", .boolean d.accountAllowed),
    ("application_results", .list (d.applications.map fun (name, b) => .list [.text name, .boolean b])),
    ("allowed", .boolean d.allowed)]

end Decision

namespace Authorizer

def question (identity : Option Identity) (k : Kind) (name : String) : Question :=
  ⟨identity, name, k, .write⟩

def rejection (k : Kind) (name : String) : Rejection :=
  match k with
  | .account => ⟨"authorization", "Access denied to account " ++ name⟩
  | .application => ⟨"authorization", "Access denied to application " ++ name⟩

def deniedEvent (type : String) (k : Kind) (name : String) : Event :=
  match k with
  | .account => .accountDenied type name
  | .application => .applicationDenied type name

def skippedCount (type : String) (account : Option String) : Increment :=
  ⟨"authorization.skipped", [⟨"descriptionClass", type⟩, ⟨"account", account.getD ""⟩]⟩

def missingCount (type account : String) : Increment :=
  ⟨"authorization.missingApplication", [⟨"descriptionClass", type⟩, ⟨"account", account⟩]⟩

def outcomeCount (type : String) (allowed : Bool) : Increment :=
  ⟨"authorization", [⟨"descriptionClass", type⟩, ⟨"success", if allowed then "true" else "false"⟩]⟩

/-- Asks about a name. A denial is rejected and logged. -/
def check (b : Backend) (type : String) (identity : Option Identity) (k : Kind) (name : String) :
    StateM Trail Bool := do
  let allowed ← Trail.ask b (question identity k name)
  unless allowed do
    Trail.reject (rejection k name)
    Trail.log (deniedEvent type k name)
  return allowed

/-- The account to be checked. A waiver is counted and logged. -/
def settleAccount (o : Operation) (p : Policy) : StateM Trail (Option String) := do
  if o.isWaived p then
    let account := o.scope.bind (·.account)
    Trail.count (skippedCount o.type account)
    Trail.log (.skipped o.type account)
  return o.checkedAccount p

def checkAccount (b : Backend) (type : String) (identity : Option Identity) :
    Option String → StateM Trail Bool
  | none => return true
  | some account => check b type identity .account account

/-- Asks about one application after another, whatever the answers are. -/
def checkApplications (b : Backend) (type : String) (identity : Option Identity)
    (names : List String) : StateM Trail (List (String × Bool)) := do
  if names.isEmpty then
    return []
  Trail.hint identity
  names.mapM fun name => do
    let allowed ← check b type identity .application name
    return (name, allowed)

/-- Counts and logs an operation within a checked account that should name applications, but does
not. -/
def reportMissing (o : Operation) (account : Option String) : StateM Trail Unit := do
  if o.expectsApplications && o.targets.isEmpty then
    if let some account := account then
      Trail.count (missingCount o.type account)
      Trail.log (.missingApplication o.type account)

def examine (b : Backend) (o : Operation) (identity : Option Identity) (p : Policy) :
    StateM Trail Decision := do
  let account ← settleAccount o p
  let accountAllowed ← checkAccount b o.type identity account
  let applications ← checkApplications b o.type identity o.targets
  reportMissing o account
  let allowed := accountAllowed && applications.all (·.2)
  Trail.count (outcomeCount o.type allowed)
  return { account, accountAllowed, applications, allowed }

end Authorizer

/-- An authorizer with no backend lets every operation pass. -/
structure Authorizer where
  backend : Option Backend

structure Evaluation where
  decision : Decision
  calls : List Call
  rejections : List Rejection
  increments : List Increment
  events : List Event
deriving DecidableEq, Repr

namespace Authorizer

def isEnabled (a : Authorizer) : Bool := a.backend.isSome

/-- There is no decision without a backend or without an operation. -/
def evaluate (a : Authorizer) (o : Option Operation) (identity : Option Identity) (p : Policy) :
    StateM Trail (Option Decision) :=
  match a.backend, o with
  | some b, some o => some <$> examine b o identity p
  | _, _ => return none

/-- For callers that look at the collector alone. -/
def authorize (a : Authorizer) (o : Option Operation) (identity : Option Identity) (p : Policy) :
    StateM Trail Unit := discard (a.evaluate o identity p)

/-- An evaluation with an empty collector, after the calls that the backend has had before. -/
def evaluate? (a : Authorizer) (o : Option Operation) (identity : Option Identity) (p : Policy)
    (before : List Call := []) : Option Evaluation :=
  let (decision, s) := (a.evaluate o identity p).run { calls := before }
  decision.map fun decision =>
    { decision
      calls := s.calls.drop before.length
      rejections := s.collector.rejections
      increments := s.increments
      events := s.events }

end Authorizer
end Clearance
