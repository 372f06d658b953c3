import Clearance.Operation

/-! The operations that are known by type. -/
namespace Clearance

/-- Tags an image. In the accounts that the policy lists this needs no check of the account. -/
structure ImageTags where
  account : Option String
  imageName : String
  applications : List (Option String)

def ImageTags.operation (t : ImageTags) : Operation where
  type := "UpsertImageTagsDescription"
  scope := some { account := t.account, needsAuthorization := fun p => !p.allowsTagging t.account }
  applications := some (some t.applications)

/-- Creates or changes a security group. These are shared among applications, so none is expected. -/
structure SecurityGroup where
  account : Option String
  name : String

def SecurityGroup.operation (g : SecurityGroup) : Operation where
  type := "UpsertSecurityGroupDescription"
  scope := some { account := g.account, expectsApplications := false }

/-- Ends instances, which belong to the applications that own their server groups. -/
structure Termination where
  account : Option String
  instanceIds : List String
  owners : Names

def Termination.operation (t : Termination) : Operation where
  type := "TerminateInstancesDescription"
  scope := some { account := t.account }
  owners := some t.owners

end Clearance
