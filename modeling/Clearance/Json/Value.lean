import Clearance.Text.Hex

/-!
The JSON values that reports and settings are written as, and their two texts: compact, and laid
out on lines with an indent of two spaces. There are no numbers among them.
-/
namespace Clearance.Json

inductive Value where
  | null
  | boolean (b : Bool)
  | text (s : String)
  | list (items : List Value)
  | object (members : List (String × Value))

namespace Value

def ofOption {α : Type} (f : α → Value) : Option α → Value
  | none => null
  | some a => f a

def texts (l : List String) : Value := list (l.map text)

end Value

/-- A character inside a string: only the quote, the backslash and the controls below U+0020 are
escaped. -/
def escaped (c : Char) : List Char :=
  match c with
  | '"' => ['\\', '"']
  | '\\' => ['\\', '\\']
  | '\x08' => ['\\', 'b']
  | '\x0c' => ['\\', 'f']
  | '\n' => ['\\', 'n']
  | '\r' => ['\\', 'r']
  | '\t' => ['\\', 't']
  | c => if c < ' ' then ['\\', 'u', '0', '0'] ++ Text.hexPair c.toNat else [c]

def quote (s : String) : List Char := '"' :: s.toList.flatMap escaped ++ ['"']

def word (b : Bool) : List Char := if b then "true".toList else "false".toList

namespace Value

mutual
def compactChars : Value → List Char
  | null => "null".toList
  | boolean b => word b
  | text s => quote s
  | list l => '[' :: compactItems l ++ [']']
  | object l => '\x7b' :: compactMembers l ++ ['\x7d']

def compactItems : List Value → List Char
  | [] => []
  | [v] => compactChars v
  | v :: w :: l => compactChars v ++ ',' :: compactItems (w :: l)

def compactMembers : List (String × Value) → List Char
  | [] => []
  | [(k, v)] => quote k ++ ':' :: compactChars v
  | (k, v) :: w :: l => quote k ++ ':' :: compactChars v ++ ',' :: compactMembers (w :: l)
end

def compact (v : Value) : String := String.ofList v.compactChars

def newLine (depth : Nat) : List Char := '\n' :: List.replicate (2 * depth) ' '

mutual
/-- An empty list or object stays on its line. -/
def prettyChars (depth : Nat) : Value → List Char
  | null => "null".toList
  | boolean b => word b
  | text s => quote s
  | list [] => ['[', ']']
  | list (v :: l) => '[' :: prettyItems (depth + 1) (v :: l) ++ newLine depth ++ [']']
  | object [] => ['\x7b', '\x7d']
  | object (m :: l) => '\x7b' :: prettyMembers (depth + 1) (m :: l) ++ newLine depth ++ ['\x7d']

def prettyItems (depth : Nat) : List Value → List Char
  | [] => []
  | [v] => newLine depth ++ prettyChars depth v
  | v :: w :: l => newLine depth ++ prettyChars depth v ++ ',' :: prettyItems depth (w :: l)

def prettyMembers (depth : Nat) : List (String × Value) → List Char
  | [] => []
  | [(k, v)] => newLine depth ++ quote k ++ ':' :: ' ' :: prettyChars depth v
  | (k, v) :: w :: l =>
    newLine depth ++ quote k ++ ':' :: ' ' :: prettyChars depth v ++
      ',' :: prettyMembers depth (w :: l)
end

def pretty (v : Value) : String := String.ofList (v.prettyChars 0)

end Value
end Clearance.Json
