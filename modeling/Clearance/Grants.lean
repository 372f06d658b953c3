import Clearance.Identity
import Clearance.Resource
import Clearance.Table

/-!
Grants: which levels of access a principal has on which accounts and applications. The name `*`
stands for every resource of a kind.
-/
namespace Clearance

structure Levels where
  read : Bool := false
  write : Bool := false
  execute : Bool := false
  create : Bool := false
deriving DecidableEq, Repr

namespace Levels

def has (s : Levels) : Level → Bool
  | .read => s.read
  | .write => s.write
  | .execute => s.execute
  | .create => s.create

def add (s : Levels) : Level → Levels
  | .read => { s with read := true }
  | .write => { s with write := true }
  | .execute => { s with execute := true }
  | .create => { s with create := true }

/-- Who may write may read; no other level contains another. -/
def allows (s : Levels) (l : Level) : Bool := s.has l || (l == .read && s.write)

def ofList (l : List Level) : Levels := l.foldl add {}

end Levels

abbrev Holdings := Table String Levels

structure Grants where
  accounts : Holdings := .empty
  applications : Holdings := .empty
deriving DecidableEq

namespace Grants

def ofKind (g : Grants) : Kind → Holdings
  | .account => g.accounts
  | .application => g.applications

def allows (g : Grants) (k : Kind) (name : String) (l : Level) : Bool :=
  [name, "*"].any fun n => (((g.ofKind k).get? n).getD {}).allows l

def add (g : Grants) (k : Kind) (name : String) (l : Level) : Grants :=
  let held := (g.ofKind k).put name ((((g.ofKind k).get? name).getD {}).add l)
  match k with
  | .account => { g with accounts := held }
  | .application => { g with applications := held }

def holdings : Json.Reader Holdings := fun s =>
  (Json.entries (Json.elements Level.vocabulary.reader) s).map fun (l, rest) =>
    (.ofList (l.map fun (name, levels) => (name, .ofList levels)), rest)

def record : Json.Record Grants where
  name := "Grants"
  fields := [
    .of "accounts" holdings fun h g => { g with accounts := h },
    .of "applications" holdings fun h g => { g with applications := h }]
  start := {}

end Grants

structure GrantTable where
  principals : Table String Grants := .empty
deriving DecidableEq

namespace GrantTable

def grant (t : GrantTable) (principal : String) (k : Kind) (name : String) (l : Level) :
    GrantTable :=
  ⟨t.principals.put principal (((t.principals.get? principal).getD {}).add k name l)⟩

/-- Without an identity nothing is allowed. -/
def allows (t : GrantTable) (i : Option Identity) (k : Kind) (name : String) (l : Level) : Bool :=
  match i with
  | none => false
  | some i => ((t.principals.get? i.principal).getD {}).allows k name l

def record : Json.Record GrantTable where
  name := "StaticPermissionEvaluator"
  fields := [
    .of "principals"
      (fun s => (Json.entries Grants.record.reader s).map fun (l, rest) => (Table.ofList l, rest))
      fun p _ => ⟨p⟩]
  start := {}

structure Error where
  cause : Json.Error

def Error.message (e : Error) : String := "invalid grant table: " ++ e.cause.message

def parse (t : String) : Except Error GrantTable :=
  (Json.parse record.reader t).mapError Error.mk

end GrantTable
end Clearance
