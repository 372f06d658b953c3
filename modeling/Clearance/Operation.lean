import Clearance.Policy

/-!
Operations as the authorizer sees them. An operation may name an account, applications, and resources
by the applications that own them, in any combination.
-/
namespace Clearance

/-- The account of an operation. `none` stands for an operation within accounts that names none. -/
structure AccountScope where
  account : Option String
  /-- Whether an operation within an account is expected to name applications. -/
  expectsApplications : Bool := true
  needsAuthorization : Policy → Bool := fun _ => true

/-- Names as they were given; those left open do not count. -/
abbrev Names := Option (List (Option String))

structure Operation where
  type : String
  scope : Option AccountScope := none
  applications : Option Names := none
  owners : Option Names := none

namespace Operation

def given : Option Names → List String
  | some (some l) => l.filterMap id
  | _ => []

/-- Every application that is named, once, in the order in which they are first named. -/
def targets (o : Operation) : List String := (given o.applications ++ given o.owners).eraseDups

/-- A waiver takes the account out of what is checked. -/
def isWaived (o : Operation) (p : Policy) : Bool :=
  match o.scope with
  | none => false
  | some scope => p.skips o.type || !scope.needsAuthorization p

def checkedAccount (o : Operation) (p : Policy) : Option String :=
  if o.isWaived p then none else o.scope.bind (·.account)

def expectsApplications (o : Operation) : Bool :=
  match o.scope with
  | none => true
  | some scope => scope.expectsApplications

end Operation
end Clearance
