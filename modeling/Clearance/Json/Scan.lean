import Clearance.Json.Fault

/-!
The tokens of JSON: blanks, words and strings. A reader takes the start of a text and gives what it
stands for, and the rest.
-/
namespace Clearance.Json

abbrev Reader (α : Type) := List Char → Except Fault (α × List Char)

def isGap (c : Char) : Bool := c == ' ' || c == '\n' || c == '\t' || c == '\r'

def skipGap (s : List Char) : List Char := s.dropWhile isGap

/-- Takes a word that is known by its first letters; any other letter is a fault. -/
def word? : List Char → List Char → Except Fault (List Char)
  | [], s => .ok s
  | _ :: _, [] => .error (.past .endInValue [])
  | w :: ws, c :: s => if c = w then word? ws s else .error (.past .expectedWord (c :: s))

def colon (s : List Char) : Except Fault (List Char) :=
  match skipGap s with
  | ':' :: rest => .ok rest
  | [] => .error (.before .endInObject [])
  | rest => .error (.past .expectedColon rest)

/-- The number that four digits stand for. Four bytes are looked at, also where they are no digits. -/
def hexQuad : Reader Nat := fun s =>
  if bytes s < 4 then .error (.before .endInString [])
  else
    match s with
    | a :: b :: c :: d :: rest =>
      match Text.hexNumber? [a, b, c, d] with
      | some n => .ok (n, rest)
      | none => .error ⟨.invalidEscape, bytes s - 4⟩
    | _ => .error ⟨.invalidEscape, bytes s - 4⟩

def isLowSurrogate (n : Nat) : Bool := 0xDC00 ≤ n && n ≤ 0xDFFF

def isHighSurrogate (n : Nat) : Bool := 0xD800 ≤ n && n ≤ 0xDBFF

def joinSurrogates (high low : Nat) : Nat := 0x10000 + 0x400 * (high - 0xD800) + (low - 0xDC00)

/-- The rest of `\u`: one code point, or the two halves of one. -/
def codePoint : Reader Char := fun s => do
  let (n, rest) ← hexQuad s
  if isLowSurrogate n then .error (.before .loneSurrogate rest)
  else if isHighSurrogate n then
    match rest with
    | [] => .error (.before .endInString [])
    | '\\' :: [] => .error (.before .endInString [])
    | '\\' :: 'u' :: rest =>
      let (low, rest) ← hexQuad rest
      if isLowSurrogate low then .ok (Char.ofNat (joinSurrogates n low), rest)
      else .error (.before .loneSurrogate rest)
    | '\\' :: rest => .error (.past .brokenSurrogatePair rest)
    | rest => .error (.past .brokenSurrogatePair rest)
  else .ok (Char.ofNat n, rest)

def letterEscape? : Char → Option Char
  | '"' => some '"'
  | '\\' => some '\\'
  | '/' => some '/'
  | 'b' => some '\x08'
  | 'f' => some '\x0c'
  | 'n' => some '\n'
  | 'r' => some '\r'
  | 't' => some '\t'
  | _ => none

def escape : Reader Char
  | [] => .error (.before .endInString [])
  | 'u' :: rest => codePoint rest
  | c :: rest =>
    match letterEscape? c with
    | some d => .ok (d, rest)
    | none => .error (.past .invalidEscape (c :: rest))

def stringTail : Nat → List Char → Reader (List Char)
  | 0, _, s => .error (.before .endInString s)
  | _ + 1, _, [] => .error (.before .endInString [])
  | _ + 1, taken, '"' :: rest => .ok (taken.reverse, rest)
  | fuel + 1, taken, '\\' :: rest => do
    let (c, rest) ← escape rest
    stringTail fuel (c :: taken) rest
  | fuel + 1, taken, c :: rest =>
    if c < ' ' then .error (.past .controlCharacter (c :: rest)) else stringTail fuel (c :: taken) rest

/-- A string after its opening quote. Each step takes a character at least, so there are no more
steps than characters. -/
def string : Reader String := fun s => do
  let (cs, rest) ← stringTail (s.length + 1) [] s
  .ok (String.ofList cs, rest)

end Clearance.Json
