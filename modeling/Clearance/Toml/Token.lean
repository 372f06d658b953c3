import Clearance.Text.Hex

/-!
The tokens of TOML: spaces, comments, line ends, strings and keys. A reader takes the start of a text
and gives what it stands for, and the rest; `none` is a text that is not TOML.
-/
namespace Clearance.Toml

abbrev Reader (α : Type) := List Char → Option (α × List Char)

def isSpace (c : Char) : Bool := c == ' ' || c == '\t'

def skipSpace (s : List Char) : List Char := s.dropWhile isSpace

def lineEnd? : List Char → Option (List Char)
  | '\n' :: rest => some rest
  | '\r' :: '\n' :: rest => some rest
  | _ => none

/-- What may stand in comments and strings: no control character but the tab. -/
def isPlain (c : Char) : Bool := c == '\t' || (' ' ≤ c && c != '\x7f')

def skipComment : List Char → List Char
  | '#' :: rest => rest.dropWhile isPlain
  | s => s

/-- The end of a line on which nothing more but a comment may stand. -/
def endOfLine? (s : List Char) : Option (List Char) :=
  match skipComment (skipSpace s) with
  | [] => some []
  | rest => lineEnd? rest

def skipLinesLoop : Nat → List Char → List Char
  | 0, s => s
  | fuel + 1, s =>
    match lineEnd? (skipComment (skipSpace s)) with
    | some rest => skipLinesLoop fuel rest
    | none => skipSpace s

/-- Skips spaces, line ends and comments, as they may stand between the items of a list. -/
def skipLines (s : List Char) : List Char := skipLinesLoop s.length s

def codePoint (count : Nat) : Reader Char := fun s => do
  if s.length < count then none
  let n ← Text.hexNumber? (s.take count)
  if n.isValidChar then some (Char.ofNat n, s.drop count) else none

def escape : Reader Char
  | 'b' :: rest => some ('\x08', rest)
  | 't' :: rest => some ('\t', rest)
  | 'n' :: rest => some ('\n', rest)
  | 'f' :: rest => some ('\x0c', rest)
  | 'r' :: rest => some ('\r', rest)
  | '"' :: rest => some ('"', rest)
  | '\\' :: rest => some ('\\', rest)
  | 'u' :: rest => codePoint 4 rest
  | 'U' :: rest => codePoint 8 rest
  | _ => none

def basicTail : Nat → List Char → Reader String
  | 0, _, _ => none
  | _ + 1, _, [] => none
  | _ + 1, taken, '"' :: rest => some (String.ofList taken.reverse, rest)
  | fuel + 1, taken, '\\' :: rest => do
    let (c, rest) ← escape rest
    basicTail fuel (c :: taken) rest
  | fuel + 1, taken, c :: rest => if isPlain c then basicTail fuel (c :: taken) rest else none

def basic : Reader String := fun s => basicTail (s.length + 1) [] s

def literal : Reader String := fun s =>
  match s.span fun c => isPlain c && c != '\'' with
  | (cs, '\'' :: rest) => some (String.ofList cs, rest)
  | _ => none

/-- Quotes within a string of several lines: fewer than three are text, of more the last three close
it, and two at most stand before them. `none` stands for a string that goes on. -/
def closing? (quote : Char) (s : List Char) : Option (List Char × List Char) :=
  let count := (s.takeWhile (· == quote)).length
  if count < 3 then none
  else
    let inner := min (count - 3) 2
    some (List.replicate inner quote, s.drop (inner + 3))

def skipBlankLines : Nat → List Char → List Char
  | 0, s => s
  | fuel + 1, s =>
    match lineEnd? (skipSpace s) with
    | some rest => skipBlankLines fuel rest
    | none => skipSpace s

/-- The text after a backslash at the end of a line, from the next character that is not blank. -/
def joined? (s : List Char) : Option (List Char) :=
  (lineEnd? (skipSpace s)).map fun rest => skipBlankLines rest.length rest

/-- A string of several lines, up to its closing quotes. Line ends become line feeds. -/
def linesTail (quote : Char) (escapes : Bool) : Nat → List Char → Reader String
  | 0, _, _ => none
  | _ + 1, _, [] => none
  | fuel + 1, taken, c :: rest =>
    if c == quote then
      match closing? quote (c :: rest) with
      | some (inner, rest) => some (String.ofList (taken.reverse ++ inner), rest)
      | none => linesTail quote escapes fuel (c :: taken) rest
    else if c == '\\' && escapes then
      match joined? rest with
      | some rest => linesTail quote escapes fuel taken rest
      | none => do
        let (d, rest) ← escape rest
        linesTail quote escapes fuel (d :: taken) rest
    else
      match lineEnd? (c :: rest) with
      | some rest => linesTail quote escapes fuel ('\n' :: taken) rest
      | none => if isPlain c then linesTail quote escapes fuel (c :: taken) rest else none

/-- A string of several lines after its opening quotes; a line end right after them is no part of
it. -/
def lines (quote : Char) (escapes : Bool) : Reader String := fun s =>
  linesTail quote escapes (s.length + 1) [] ((lineEnd? s).getD s)

def isBare (c : Char) : Bool := c.isAlphanum || c == '_' || c == '-'

def simpleKey : Reader String
  | '"' :: rest => basic rest
  | '\'' :: rest => literal rest
  | s =>
    match s.span isBare with
    | ([], _) => none
    | (cs, rest) => some (String.ofList cs, rest)

/-- The number of parts of a key, and of lists and tables within each other, stays below this. -/
def nestingLimit : Nat := 80

def keyLoop : Nat → Reader (List String)
  | 0, _ => none
  | fuel + 1, s => do
    let (k, rest) ← simpleKey (skipSpace s)
    match skipSpace rest with
    | '.' :: rest => do
      let (ks, rest) ← keyLoop fuel rest
      some (k :: ks, rest)
    | rest => some ([k], rest)

/-- A key of several parts with points between them, and the spaces around it. -/
def key : Reader (List String) := keyLoop (nestingLimit - 1)

end Clearance.Toml
