import Clearance.Toml.Section

/-! TOML documents: values, with lists and tables among them, assignments and headers. -/
namespace Clearance.Toml

/-- The items of a list, after its bracket or a comma. A comma may stand after the last. -/
def listTail (item : Reader Value) : Nat → List Value → Reader Value
  | 0, _, _ => none
  | fuel + 1, taken, s =>
    match skipLines s with
    | ']' :: rest => some (.list taken.reverse, rest)
    | s => do
      let (v, rest) ← item s
      match skipLines rest with
      | ']' :: rest => some (.list (v :: taken).reverse, rest)
      | ',' :: rest => listTail item fuel (v :: taken) rest
      | _ => none

def assignment (item : Reader Value) : Reader (List String × Value) := fun s => do
  let (path, rest) ← key s
  let (v, rest) ← item (skipSpace (← char '=' rest))
  some ((path, v), rest)

/-- The assignments of a table that is written as a value. No comma may stand after the last. -/
def tableTail (item : Reader Value) : Nat → Entries → Reader Value
  | 0, _, _ => none
  | fuel + 1, entries, s => do
    let ((path, v), rest) ← assignment item s
    let entries ← assign path v entries
    match skipSpace rest with
    | '\x7d' :: rest => some (.table (Node.entryValues entries), rest)
    | ',' :: rest => tableTail item fuel entries rest
    | _ => none

/-- A value in which lists and tables nest so deep at most. -/
def value : Nat → Reader Value
  | 0, s =>
    match s with
    | '[' :: _ | '\x7b' :: _ => none
    | s => scalar s
  | depth + 1, s =>
    match s with
    | '[' :: rest => listTail (value depth) (rest.length + 1) [] rest
    | '\x7b' :: rest =>
      match skipSpace rest with
      | '\x7d' :: rest => some (.table [], rest)
      | rest => tableTail (value depth) (rest.length + 1) [] rest
    | s => scalar s

def header (s : List Char) (entries : Entries) : Option (List String × Entries × List Char) :=
  match s with
  | '[' :: '[' :: rest => do
    let (path, rest) ← key rest
    let rest ← endOfLine? (← char ']' (← char ']' rest))
    some (path, ← openItem path entries, rest)
  | '[' :: rest => do
    let (path, rest) ← key rest
    let rest ← endOfLine? (← char ']' rest)
    some (path, ← openTable path entries, rest)
  | _ => none

/-- The lines of a document; assignments go to the table of the last header. -/
def linesFrom : Nat → List String → Entries → List Char → Option Entries
  | 0, _, _, _ => none
  | fuel + 1, here, entries, s =>
    match skipSpace s with
    | [] => some entries
    | '[' :: rest => do
      let (here, entries, rest) ← header ('[' :: rest) entries
      linesFrom fuel here entries rest
    | c :: rest => do
      if c == '#' || c == '\n' || c == '\r' then
        linesFrom fuel here entries (← endOfLine? (c :: rest))
      else
        let ((path, v), rest) ← assignment (value (nestingLimit - 1)) (c :: rest)
        let entries ← within false (fun _ => assign path v) here false entries
        linesFrom fuel here entries (← endOfLine? rest)

/-- The table of a document. A byte order mark may stand before it. -/
def parse (t : String) : Option (List (String × Value)) :=
  let s := match t.toList with
    | '\ufeff' :: rest => rest
    | s => s
  (linesFrom (s.length + 1) [] [] s).map Node.entryValues

end Clearance.Toml
