import Clearance.Table
import Clearance.Toml.Document

/-!
Settings as their sources give them: trees of tables, lists and scalars, each with its source. Of two
trees the later is laid over the earlier, table by table; where they do not both have a table, the
later one counts alone.
-/
namespace Clearance.Settings

inductive Source where
  | file (path : String)
  | environment
deriving DecidableEq, Repr

inductive Scalar where
  | text (s : String)
  | character (c : Char)
  | boolean (b : Bool)
  | unsigned (n : Nat)
  | signed (i : Int)
  | real (x : Float)

inductive Tree where
  | leaf (source : Source) (value : Scalar)
  | list (source : Source) (items : List Tree)
  | table (source : Source) (entries : List (String × Tree))

namespace Tree

def source : Tree → Source
  | leaf s _ | list s _ | table s _ => s

mutual
def overlay (below : Tree) : Tree → Tree
  | leaf s v => leaf s v
  | list s l => list s l
  | table s upper =>
    match below with
    | table _ lower => table s (overlayEntries lower upper)
    | _ => table s (overlayEntries [] upper)

def overlayEntries (lower : List (String × Tree)) : List (String × Tree) → List (String × Tree)
  | [] => lower
  | (k, t) :: upper =>
    let laid := match findKey? k lower with
      | some below => overlay below t
      | none => t
    overlayEntries (putEntry k laid lower) upper
end

def nest (source : Source) (t : Tree) : List String → Tree
  | [] => t
  | k :: path => table source [(k, nest source t path)]

/-- A date is a table with one entry of its own. -/
def momentKey : String := "$__toml_private_datetime"

/-- A table with this key stands for the key's value, whatever else is in it. -/
def valueKey : String := "___figment_value_value"

/-- The key that no table may have. -/
def reservedKey : String := "___figment_value_id"

mutual
def ofToml (source : Source) : Toml.Value → Option Tree
  | .text s => some (leaf source (.text s))
  | .boolean b => some (leaf source (.boolean b))
  | .integer i => some (leaf source (.signed i))
  | .real x => some (leaf source (.real x))
  | .moment written => some (table source [(momentKey, leaf source (.text written))])
  | .list l => (ofTomlItems source l).map (list source)
  | .table l => do
    let entries ← ofTomlEntries source l
    match findKey? reservedKey entries, findKey? valueKey entries with
    | some _, _ => none
    | none, some t => some t
    | none, none => some (table source entries)

def ofTomlItems (source : Source) : List Toml.Value → Option (List Tree)
  | [] => some []
  | v :: l => do
    let t ← ofToml source v
    some (t :: (← ofTomlItems source l))

def ofTomlEntries (source : Source) : List (String × Toml.Value) → Option (List (String × Tree))
  | [] => some []
  | (k, v) :: l => do
    let t ← ofToml source v
    some ((k, t) :: (← ofTomlEntries source l))
end

/-- The table of a whole document, in which no key is special. -/
def ofDocument (source : Source) (entries : List (String × Toml.Value)) : Option Tree :=
  (ofTomlEntries source entries).map (table source)

end Tree
end Clearance.Settings
