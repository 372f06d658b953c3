import Clearance.Settings.Tree
import Clearance.Text.Ascii
import Clearance.Text.Blank
import Clearance.Text.Bytes

/-!
Settings in environment variables. After the name's common start two underscores lead from a table
to an entry of it. A value that is written like a number, a list, a table and so on is one; every
other value is a text.
-/
namespace Clearance

/-- Variables in their order, each name once. -/
structure Environment where
  entries : List (String × String) := []
deriving DecidableEq, Repr

namespace Environment

def get? (e : Environment) (name : String) : Option String := e.entries.lookup name

/-- A variable that is set again keeps its place. -/
def set (e : Environment) (name value : String) : Environment :=
  if (e.get? name).isSome then
    ⟨e.entries.map fun (n, v) => if n = name then (n, value) else (n, v)⟩
  else ⟨e.entries ++ [(name, value)]⟩

def ofList (l : List (String × String)) : Environment := l.foldl (fun e v => e.set v.1 v.2) {}

end Environment

namespace Settings

def variableStart : String := "OPSGUARD_"

/-- Two underscores become a point. -/
def joinPoints : List Char → List Char
  | '_' :: '_' :: rest => '.' :: joinPoints rest
  | c :: rest => c :: joinPoints rest
  | [] => []

def splitPoints : List Char → List (List Char)
  | [] => [[]]
  | c :: rest =>
    match splitPoints rest with
    | part :: parts => if c = '.' then [] :: part :: parts else (c :: part) :: parts
    | [] => [[c]]

/-- The path of a variable's name, in lower case. -/
def pathOf? (name : String) : Option (List String) :=
  let cs := Text.trim name.toList
  let start := variableStart.toList
  if (cs.take start.length).map Char.toUpper = start then
    let parts := splitPoints (Text.trim (joinPoints (cs.drop start.length)))
    if parts.any List.isEmpty then none
    else some (parts.map fun part => Text.lower (String.ofList part))
  else none

def skipAscii (s : List Char) : List Char := s.dropWhile Text.isAsciiBlank

def sign : List Char → Bool × List Char
  | '+' :: rest => (false, rest)
  | '-' :: rest => (true, rest)
  | s => (false, s)

def decimal? (ds : List Char) : Option Nat :=
  if ds ≠ [] ∧ ds.all Char.isDigit then some (Toml.numberIn 10 ds) else none

/-- A number with a point, which needs a digit on one of its sides. -/
def real? (s : List Char) : Option Float := do
  let (negative, s) := sign s
  let (ds, rest) := s.span Char.isDigit
  match rest with
  | '.' :: rest =>
    let (fs, rest) := rest.span Char.isDigit
    if ds.isEmpty && fs.isEmpty then none
    let power : Int ← match rest with
      | [] => some 0
      | 'e' :: rest | 'E' :: rest => do
        let (down, es) := sign rest
        let e ← decimal? es
        some (if down then -e else e)
      | _ => none
    some (Toml.signed negative (Decimal.nearest (Toml.numberIn 10 (ds ++ fs)) (power - fs.length)))
  | _ => none

/-- A number without a sign has 64 bits. -/
def unsigned? : List Char → Option Nat
  | '-' :: _ => none
  | s => do
    let n ← decimal? (sign s).2
    if n ≤ Decimal.wordLimit then some n else none

def signed? (s : List Char) : Option Int := do
  let (negative, ds) := sign s
  let n : Int ← decimal? ds
  let i := if negative then -n else n
  if Decimal.fitsSigned i then some i else none

def isSeparator (c : Char) : Bool :=
  c == ',' || c == '\x7b' || c == '\x7d' || c == '[' || c == ']'

def bare (s : List Char) : Scalar :=
  let s := Text.trim s
  match if s.contains '.' then real? s else none with
  | some x => .real x
  | none =>
    match unsigned? s, signed? s with
    | some n, _ => .unsigned n
    | none, some i => .signed i
    | none, none => .text (String.ofList s)

/-- Items between commas up to the closing bracket. It is looked for right after the opening one and
after each comma, so one comma may stand at the end. -/
def itemsLoop {α : Type} (item : Toml.Reader α) (close : Char) : Nat → List α → Toml.Reader (List α)
  | 0, _, _ => none
  | _ + 1, _, [] => none
  | fuel + 1, taken, c :: s =>
    if c = close then some (taken.reverse, s)
    else do
      let (a, rest) ← item (c :: s)
      match rest with
      | ',' :: rest => itemsLoop item close fuel (a :: taken) rest
      | d :: rest => if d = close then some ((a :: taken).reverse, rest) else none
      | [] => none

def items {α : Type} (item : Toml.Reader α) (close : Char) : Toml.Reader (List α) := fun s =>
  itemsLoop item close (s.length + 1) [] s

/-- A text with escapes, after its opening quote. Of what stands before the first escape only as
many bytes are kept as it has characters. -/
def quotedText : Toml.Reader String := fun s =>
  match s.span fun c => Toml.isPlain c && c != '"' && c != '\\' with
  | (before, '\\' :: rest) => do
    let (t, rest) ← Toml.basic ('\\' :: rest)
    some (String.ofList (Text.takeBytes before.length before) ++ t, rest)
  | _ => Toml.basic s

def entryKey : Toml.Reader String := fun s => do
  let (k, rest) ← match skipAscii s with
    | '"' :: rest => quotedText rest
    | s =>
      match s.span Toml.isBare with
      | ([], _) => none
      | (cs, rest) => some (String.ofList cs, rest)
  some (k, skipAscii rest)

/-- A value and the blanks around it, in which lists and tables nest so deep at most. -/
def variableValue : Nat → Toml.Reader Tree
  | 0, _ => none
  | depth + 1, s => do
    let leaf (v : Scalar) (rest : List Char) : Option (Tree × List Char) :=
      some (.leaf .environment v, rest)
    let (t, rest) ← match skipAscii s with
      | 't' :: 'r' :: 'u' :: 'e' :: rest => leaf (.boolean true) rest
      | 'f' :: 'a' :: 'l' :: 's' :: 'e' :: rest => leaf (.boolean false) rest
      | '\x7b' :: rest => do
        let entry : Toml.Reader (String × Tree) := fun s => do
          let (k, rest) ← entryKey s
          let (t, rest) ← variableValue depth (← Toml.char '=' rest)
          some ((k, t), rest)
        let (l, rest) ← items entry '\x7d' rest
        some (.table .environment (l.foldl (fun es e => putEntry e.1 e.2 es) []), rest)
      | '[' :: rest => do
        let (l, rest) ← items (variableValue depth) ']' rest
        some (.list .environment l, rest)
      | '"' :: rest => do
        let (t, rest) ← quotedText rest
        leaf (.text t) rest
      | '\'' :: c :: '\'' :: rest => leaf (.character c) rest
      | '\'' :: _ => none
      | s =>
        let (cs, rest) := s.span fun c => !isSeparator c
        leaf (bare cs) rest
    some (t, skipAscii rest)

/-- A value that is not written in any of these ways is a text as it stands. -/
def ofVariable (value : String) : Tree :=
  match variableValue (value.length + 1) value.toList with
  | some (t, []) => t
  | _ => .leaf .environment (.text value)

/-- The settings of all variables, the later laid over the earlier. -/
def ofEnvironment (e : Environment) : Tree :=
  e.entries.foldl
    (fun t (name, value) =>
      match pathOf? name with
      | some path => t.overlay (.nest .environment (ofVariable value) path)
      | none => t)
    (.table .environment [])

end Settings
end Clearance
