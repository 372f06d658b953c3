import Clearance.Operation
import Clearance.Text.Blank

/-!
Operations written as JSON documents. A capability is there exactly when its member is, even as null.
-/
namespace Clearance

structure Document where
  type : String
  account : Option (Option String) := none
  applications : Option Names := none
  owners : Option Names := none
  restriction : Option Bool := none
deriving DecidableEq, Repr

namespace Document

def operation (d : Document) : Operation where
  type := d.type
  scope := d.account.map fun account =>
    { account := account, expectsApplications := d.restriction.getD true }
  applications := d.applications
  owners := d.owners

inductive Error where
  | malformed (e : Json.Error)
  | blankType

def Error.message : Error → String
  | .malformed e => "validation failed: operation document: " ++ e.message
  | .blankType => "invalid name: operation type must not be blank"

def names : Json.Reader Names :=
  Json.nullable (Json.elements (Json.nullable (Json.text "a string")))

def record : Json.Record Document where
  name := "OperationDocument"
  fields := [
    { Json.Field.of "type" (Json.text "a string") fun t d => { d with type := t } with
      required := true },
    .of "account" (Json.nullable (Json.text "a string")) fun a d => { d with account := some a },
    .of "applications" names fun l d => { d with applications := some l },
    .of "resourceApplications" names fun l d => { d with owners := some l },
    .of "requiresApplicationRestriction" (Json.nullable Json.boolean)
      fun b d => { d with restriction := b }]
  start := { type := "" }

def parse (t : String) : Except Error Document := do
  let d ← (Json.parse record.reader t).mapError .malformed
  if d.type.toList.all Text.isBlank then .error .blankType else .ok d

end Document
end Clearance
