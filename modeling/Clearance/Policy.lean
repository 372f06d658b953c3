import Clearance.Json.Read
import Clearance.Json.Value

/-!
The security policy: for which types of operations no account is checked, and in which accounts
images may be tagged without a check.
-/
namespace Clearance

structure Policy where
  taggingAccounts : List String := []
  skippedTypes : List String := []
deriving DecidableEq, Repr

namespace Policy

def allowsTagging (p : Policy) : Option String → Bool
  | none => false
  | some account => p.taggingAccounts.contains account

def skips (p : Policy) (type : String) : Bool := p.skippedTypes.contains type

def toValue (p : Policy) : Json.Value :=
  .object [
    ("allow_unauthenticated_image_tagging_in_accounts", .texts p.taggingAccounts),
    ("skip_authorization_for", .texts p.skippedTypes)]

def record : Json.Record Policy where
  name := "OperationsSecurityPolicy"
  fields := [
    .of "allow_unauthenticated_image_tagging_in_accounts" (Json.elements (Json.text "a string"))
      fun l p => { p with taggingAccounts := l },
    .of "skip_authorization_for" (Json.elements (Json.text "a string"))
      fun l p => { p with skippedTypes := l }]
  start := {}

end Policy
end Clearance
