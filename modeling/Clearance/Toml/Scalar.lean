import Clearance.Decimal.Nearest
import Clearance.Decimal.Word
import Clearance.Toml.Token

/-! Numbers, truth values, dates and times of TOML. -/
namespace Clearance.Toml

inductive Value where
  | text (s : String)
  | boolean (b : Bool)
  | integer (i : Int)
  | real (x : Float)
  | moment (written : String)
  | list (items : List Value)
  | table (entries : List (String × Value))

def groupTail (isDigit : Char → Bool) : Reader (List Char)
  | [] => some ([], [])
  | '_' :: d :: rest =>
    if isDigit d then (groupTail isDigit rest).map fun (ds, rest) => (d :: ds, rest) else none
  | d :: rest =>
    if isDigit d then (groupTail isDigit rest).map fun (ds, rest) => (d :: ds, rest)
    else if d == '_' then none
    else some ([], d :: rest)

/-- Digits, between any two of which one underscore may stand. -/
def grouped (isDigit : Char → Bool) : Reader (List Char)
  | [] => none
  | d :: rest =>
    if isDigit d then (groupTail isDigit rest).map fun (ds, rest) => (d :: ds, rest) else none

def numberIn (base : Nat) (ds : List Char) : Nat :=
  ds.foldl (fun n d => base * n + (Text.hexDigit? d).getD 0) 0

/-- An integer has 64 bits, the sign among them. -/
def integer? (i : Int) : Option Value :=
  if Decimal.fitsSigned i then some (.integer i) else none

def based (base : Nat) (isDigit : Char → Bool) : Reader Value := fun s => do
  let (ds, rest) ← grouped isDigit s
  some (← integer? (numberIn base ds), rest)

/-- The digits before the point: no zero before another digit. -/
def wholeDigits : Reader (List Char)
  | '0' :: rest => some (['0'], rest)
  | s => grouped Char.isDigit s

def exponent : Reader Int := fun s =>
  let digits (sign : Int) (s : List Char) : Option (Int × List Char) := do
    let (ds, rest) ← grouped Char.isDigit s
    some (sign * numberIn 10 ds, rest)
  match s with
  | '+' :: rest => digits 1 rest
  | '-' :: rest => digits (-1) rest
  | rest => digits 1 rest

def signed (negative : Bool) (x : Float) : Float := if negative then -x else x

/-- A number above the range is refused; one below it is the negative infinity. -/
def real? (negative : Bool) (ds : List Char) (power : Int) : Option Value :=
  let x := Decimal.nearest (numberIn 10 ds) power
  if x.isInf && !negative then none else some (.real (signed negative x))

def unsigned (negative : Bool) : Reader Value
  | 'i' :: 'n' :: 'f' :: rest => some (.real (signed negative (1 / 0)), rest)
  | 'n' :: 'a' :: 'n' :: rest => some (.real (signed negative (0 / 0)), rest)
  | s => do
    let (ds, rest) ← wholeDigits s
    match rest with
    | '.' :: rest =>
      let (fs, rest) ← grouped Char.isDigit rest
      let power : Int := -fs.length
      match rest with
      | 'e' :: rest | 'E' :: rest =>
        let (e, rest) ← exponent rest
        some (← real? negative (ds ++ fs) (power + e), rest)
      | rest => some (← real? negative (ds ++ fs) power, rest)
    | 'e' :: rest | 'E' :: rest =>
      let (e, rest) ← exponent rest
      some (← real? negative ds e, rest)
    | rest =>
      let n : Int := numberIn 10 ds
      some (← integer? (if negative then -n else n), rest)

def number : Reader Value
  | '+' :: rest => unsigned false rest
  | '-' :: rest => unsigned true rest
  | '0' :: 'x' :: rest => based 16 (fun c => (Text.hexDigit? c).isSome) rest
  | '0' :: 'o' :: rest => based 8 (fun c => '0' ≤ c && c ≤ '7') rest
  | '0' :: 'b' :: rest => based 2 (fun c => c == '0' || c == '1') rest
  | s => unsigned false s

def digits (count : Nat) : Reader Nat := fun s =>
  let ds := s.take count
  if ds.length = count ∧ ds.all Char.isDigit then some (numberIn 10 ds, s.drop count) else none

def two (low high : Nat) : Reader Nat := fun s => do
  let (n, rest) ← digits 2 s
  if low ≤ n ∧ n ≤ high then some (n, rest) else none

def char (c : Char) : List Char → Option (List Char)
  | d :: rest => if d = c then some rest else none
  | [] => none

def isLeap (year : Nat) : Bool := year % 4 == 0 && (year % 100 != 0 || year % 400 == 0)

def daysIn (year month : Nat) : Nat :=
  if month = 2 then (if isLeap year then 29 else 28)
  else if month = 4 ∨ month = 6 ∨ month = 9 ∨ month = 11 then 30
  else 31

def dateTail (year : Nat) (s : List Char) : Option (List Char) := do
  let (month, rest) ← two 1 12 s
  let (_, rest) ← two 1 (daysIn year month) (← char '-' rest)
  some rest

def hour? (s : List Char) : Option (List Char) := do
  let (_, rest) ← two 0 23 s
  char ':' rest

/-- The rest of a time after the hour. Every minute may have a leap second. -/
def timeTail (s : List Char) : Option (List Char) := do
  let (_, rest) ← two 0 59 s
  let (_, rest) ← two 0 60 (← char ':' rest)
  match rest with
  | '.' :: d :: more => if d.isDigit then some (more.dropWhile Char.isDigit) else some rest
  | _ => some rest

def offset? : List Char → Option (List Char)
  | 'Z' :: rest | 'z' :: rest => some rest
  | '+' :: rest | '-' :: rest => do
    let (_, rest) ← two 0 59 (← hour? rest)
    some rest
  | rest => some rest

/-- A time may follow a date after a letter or a space; without one these are no part of it. -/
def dateTime? (year : Nat) (s : List Char) : Option (List Char) := do
  let rest ← dateTail year s
  match rest with
  | c :: more =>
    if c == 'T' || c == 't' || c == ' ' then
      match hour? more with
      | some more => offset? (← timeTail more)
      | none => some rest
    else some rest
  | [] => some []

/-- A date, a time, or both. `none` is a text that does not start like one. -/
def moment? (s : List Char) : Option (Option (List Char)) :=
  match digits 4 s with
  | some (year, '-' :: rest) => some (dateTime? year rest)
  | _ => (hour? s).map timeTail

def scalar : Reader Value
  | 't' :: 'r' :: 'u' :: 'e' :: rest => some (.boolean true, rest)
  | 'f' :: 'a' :: 'l' :: 's' :: 'e' :: rest => some (.boolean false, rest)
  | '"' :: '"' :: '"' :: rest => (lines '"' true rest).map fun (t, rest) => (.text t, rest)
  | '\'' :: '\'' :: '\'' :: rest => (lines '\'' false rest).map fun (t, rest) => (.text t, rest)
  | '"' :: rest => (basic rest).map fun (t, rest) => (.text t, rest)
  | '\'' :: rest => (literal rest).map fun (t, rest) => (.text t, rest)
  | s =>
    match moment? s with
    | some found => found.map fun rest =>
      (.moment (String.ofList (s.take (s.length - rest.length))), rest)
    | none => number s

end Clearance.Toml
