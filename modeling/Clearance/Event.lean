import Clearance.Json.Value

/-! The events that are logged, each with its severity, its source, its text and its fields. -/
namespace Clearance

inductive Severity where
  | error
  | warn
  | info
  | debug
  | trace
deriving DecidableEq, Repr

def Severity.rank : Severity → Nat
  | .error => 1
  | .warn => 2
  | .info => 3
  | .debug => 4
  | .trace => 5

def Severity.name : Severity → String
  | .error => "ERROR"
  | .warn => "WARN"
  | .info => "INFO"
  | .debug => "DEBUG"
  | .trace => "TRACE"

inductive Event where
  | skipped (type : String) (account : Option String)
  | accountDenied (type account : String)
  | applicationDenied (type application : String)
  | missingApplication (type account : String)
  | authorizationDisabled
  | noGrants
  | checked (allowed : Bool)
deriving DecidableEq, Repr

namespace Event

def severity : Event → Severity
  | skipped .. | checked _ => .info
  | accountDenied .. | applicationDenied .. => .debug
  | missingApplication .. | authorizationDisabled | noGrants => .warn

def source : Event → String
  | skipped .. | accountDenied .. | applicationDenied .. | missingApplication .. =>
    "opsguard_auth::authorize"
  | authorizationDisabled | noGrants => "opsguard_cli"
  | checked _ => "opsguard"

def message : Event → String
  | skipped .. => "skipping authorization for operation"
  | accountDenied .. => "account access denied"
  | applicationDenied .. => "application access denied"
  | missingApplication .. => "no application(s) specified for operation with account restriction"
  | authorizationDisabled => "authorization disabled; all operations are implicitly authorized"
  | noGrants => "no grant table configured; every permission check will be denied"
  | checked _ => "operation checked"

def fields : Event → List (String × Json.Value)
  | skipped type account =>
    ("description_type", .text type) :: (account.map fun a => ("account", .text a)).toList
  | accountDenied type account | missingApplication type account =>
    [("description_type", .text type), ("account", .text account)]
  | applicationDenied type application =>
    [("description_type", .text type), ("application", .text application)]
  | authorizationDisabled | noGrants => []
  | checked allowed => [("allowed", .boolean allowed)]

/-- The names of the fields of events of its form, whether they have a value or not. -/
def fieldNames : Event → List String
  | skipped .. | accountDenied .. | missingApplication .. =>
    ["message", "description_type", "account"]
  | applicationDenied .. => ["message", "description_type", "application"]
  | authorizationDisabled | noGrants => ["message"]
  | checked _ => ["message", "allowed"]

/-- An event as an object, with the time at which it is logged. -/
def line (time : String) (e : Event) : String :=
  (Json.Value.object [
    ("timestamp", .text time),
    ("level", .text e.severity.name),
    ("fields", .object (("message", .text e.message) :: e.fields))]).compact

/-- An event on a line for readers. Colours and the place in the program are left out. -/
def prettyLine (time : String) (e : Event) : String :=
  let shown (f : String × Json.Value) := ", " ++ f.1 ++ ": " ++ f.2.compact
  time ++ " " ++ e.severity.name ++ " " ++ e.message ++ String.join (e.fields.map shown)

end Event
end Clearance
