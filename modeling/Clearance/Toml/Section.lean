import Clearance.Table
import Clearance.Toml.Scalar

/-!
Tables as a document builds them up. A table may come to be by its header, as a step on the way to
another header, or by a key of several parts; which of these it was decides what may still be added.
-/
namespace Clearance.Toml

inductive Node where
  | value (v : Value)
  /-- A table. It is implicit as long as no header of its own has been met; a dotted one comes from a
  key of several parts. -/
  | table (implicit dotted : Bool) (entries : List (String × Node))
  | tables (items : List (List (String × Node)))

namespace Node

mutual
def toValue : Node → Value
  | value v => v
  | table _ _ entries => .table (entryValues entries)
  | tables items => .list (itemValues items)

def entryValues : List (String × Node) → List (String × Value)
  | [] => []
  | (k, n) :: l => (k, n.toValue) :: entryValues l

def itemValues : List (List (String × Node)) → List Value
  | [] => []
  | entries :: l => .table (entryValues entries) :: itemValues l
end

end Node

abbrev Entries := List (String × Node)

/-- Changes the table at a path, and makes the tables on the way. On the way of a key no table may be
met that has a header of its own. -/
def within (byKey : Bool) (change : Bool → Entries → Option Entries) :
    List String → Bool → Entries → Option Entries
  | [], dotted, entries => change dotted entries
  | k :: path, _, entries =>
    match findKey? k entries with
    | none => do
      let inner ← within byKey change path byKey []
      some (putEntry k (.table true byKey inner) entries)
    | some (.value _) => none
    | some (.table implicit dotted inner) => do
      if byKey && !implicit then none
      let inner ← within byKey change path dotted inner
      some (putEntry k (.table implicit dotted inner) entries)
    | some (.tables items) => do
      let inner ← within byKey change path false (← items.getLast?)
      some (putEntry k (.tables (items.dropLast ++ [inner])) entries)

/-- Gives a key a value in a table. The key must be new, and the table one that keys may add to. -/
def assign (path : List String) (v : Value) (entries : Entries) : Option Entries := do
  let last ← path.getLast?
  let change (dotted : Bool) (entries : Entries) : Option Entries :=
    if dotted == path.dropLast.isEmpty then none
    else
      match findKey? last entries with
      | some _ => none
      | none => some (putEntry last (.value v) entries)
  within true change path.dropLast false entries

/-- The header of a table, which has one only. -/
def openTable (path : List String) (entries : Entries) : Option Entries := do
  let last ← path.getLast?
  let change (_ : Bool) (entries : Entries) : Option Entries :=
    match findKey? last entries with
    | none => some (putEntry last (.table false false []) entries)
    | some (.table true false inner) => some (putEntry last (.table false false inner) entries)
    | some _ => none
  within false change path.dropLast false entries

/-- A header that may be repeated; each adds a table. -/
def openItem (path : List String) (entries : Entries) : Option Entries := do
  let last ← path.getLast?
  let change (_ : Bool) (entries : Entries) : Option Entries :=
    match findKey? last entries with
    | none => some (putEntry last (.tables [[]]) entries)
    | some (.tables items) => some (putEntry last (.tables (items ++ [[]])) entries)
    | some _ => none
  within false change path.dropLast false entries

end Clearance.Toml
