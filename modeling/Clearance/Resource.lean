import Clearance.Json.Read
import Clearance.Json.Value
import Clearance.Text.Ascii

/-!
What permissions are about: kinds of resources and levels of access, with the names that permission
backends know them by.
-/
namespace Clearance

inductive Kind where
  | account
  | application
deriving DecidableEq, Repr

/-- Operations that change a resource ask for `write`. -/
inductive Level where
  | read
  | write
  | execute
  | create
deriving DecidableEq, Repr

def Kind.name : Kind → String
  | .account => "ACCOUNT"
  | .application => "APPLICATION"

def Level.name : Level → String
  | .read => "READ"
  | .write => "WRITE"
  | .execute => "EXECUTE"
  | .create => "CREATE"

/-- The names that kinds and levels are declared by. JSON has these, in capitals. -/
def Kind.declared : Kind → String
  | .account => "Account"
  | .application => "Application"

def Level.declared : Level → String
  | .read => "Read"
  | .write => "Write"
  | .execute => "Execute"
  | .create => "Create"

/-- The names of a type, by themselves and in JSON. -/
structure Vocabulary (α : Type) where
  title : String
  names : List (String × α)
  jsonNames : List (String × α)

def Vocabulary.of {α : Type} (title : String) (name declared : α → String) (all : List α) :
    Vocabulary α where
  title := title
  names := all.map fun a => (name a, a)
  jsonNames := all.map fun a => (Text.upper (declared a), a)

def Kind.vocabulary : Vocabulary Kind :=
  .of "ResourceType" Kind.name Kind.declared [.account, .application]

def Level.vocabulary : Vocabulary Level :=
  .of "Authorization" Level.name Level.declared [.read, .write, .execute, .create]

structure UnknownName where
  vocabulary : String
  name : String
deriving DecidableEq, Repr

def UnknownName.message (e : UnknownName) : String :=
  s!"validation failed: {e.vocabulary}: unknown value '{e.name}'"

namespace Vocabulary
variable {α : Type}

/-- Reads a name in any case of its ASCII letters. -/
def parse (v : Vocabulary α) (s : String) : Except UnknownName α :=
  match v.names.lookup (Text.upper s) with
  | some a => .ok a
  | none => .error ⟨v.title, Text.upper s⟩

/-- In JSON a name has its own case only. -/
def reader (v : Vocabulary α) : Json.Reader α := Json.variant v.jsonNames

end Vocabulary

def Kind.toValue (k : Kind) : Json.Value := .text (Text.upper k.declared)

def Level.toValue (l : Level) : Json.Value := .text (Text.upper l.declared)

end Clearance
