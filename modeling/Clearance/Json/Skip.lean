import Clearance.Json.Number

/-!
Skipping the value of a member that nobody asked for. Its tokens must be well formed, but surrogates
may stand alone and numbers may have any size. Lists and objects nest without limit: the brackets
that are open are kept in a list.
-/
namespace Clearance.Json

def skipStringTail : Nat → List Char → Except Fault (List Char)
  | 0, s => .error (.before .endInString s)
  | _ + 1, [] => .error (.before .endInString [])
  | _ + 1, '"' :: rest => .ok rest
  | _ + 1, '\\' :: [] => .error (.before .endInString [])
  | fuel + 1, '\\' :: 'u' :: rest => do
    let (_, rest) ← hexQuad rest
    skipStringTail fuel rest
  | fuel + 1, '\\' :: c :: rest =>
    match letterEscape? c with
    | some _ => skipStringTail fuel rest
    | none => .error (.past .invalidEscape (c :: rest))
  | fuel + 1, c :: rest =>
    if c < ' ' then .error (.before .controlCharacter (c :: rest)) else skipStringTail fuel rest

def skipString (s : List Char) : Except Fault (List Char) := skipStringTail (s.length + 1) s

inductive Bracket where
  | list
  | object

def skipName (s : List Char) : Except Fault (List Char) := do
  match skipGap s with
  | '"' :: rest => colon (← skipString rest)
  | [] => .error (.before .endInObject [])
  | rest => .error (.past .keyNotString rest)

inductive Skipped where
  | whole (rest : List Char)
  | inside (brackets : List Bracket) (rest : List Char)

/-- Closes brackets up to the next value, or to the end of the outermost one. -/
def leave : List Bracket → List Char → Except Fault Skipped
  | [], s => .ok (.whole s)
  | .list :: outer, s =>
    match skipGap s with
    | ',' :: rest => .ok (.inside (.list :: outer) rest)
    | ']' :: rest => leave outer rest
    | [] => .error (.before .endInList [])
    | rest => .error (.past .expectedListSeparator rest)
  | .object :: outer, s =>
    match skipGap s with
    | ',' :: rest => do .ok (.inside (.object :: outer) (← skipName rest))
    | '\x7d' :: rest => leave outer rest
    | [] => .error (.before .endInObject [])
    | rest => .error (.past .expectedObjectSeparator rest)

def enter (outer : List Bracket) (s : List Char) : Except Fault Skipped := do
  match skipGap s with
  | [] => .error (.before .endInValue [])
  | 'n' :: rest => leave outer (← word? "ull".toList rest)
  | 't' :: rest => leave outer (← word? "rue".toList rest)
  | 'f' :: rest => leave outer (← word? "alse".toList rest)
  | '"' :: rest => leave outer (← skipString rest)
  | '-' :: rest => leave outer (← skipNumber rest)
  | '[' :: rest =>
    match skipGap rest with
    | ']' :: rest => leave outer rest
    | [] => .error (.before .endInList [])
    | rest => .ok (.inside (.list :: outer) rest)
  | '\x7b' :: rest =>
    match skipGap rest with
    | '\x7d' :: rest => leave outer rest
    | rest => do .ok (.inside (.object :: outer) (← skipName rest))
  | c :: rest =>
    if c.isDigit then leave outer (← skipNumber (c :: rest))
    else .error (.past .expectedValue (c :: rest))

def skipLoop : Nat → List Bracket → List Char → Except Fault (List Char)
  | 0, _, s => .error (.before .endInValue s)
  | fuel + 1, brackets, s => do
    match ← enter brackets s with
    | .whole rest => .ok rest
    | .inside brackets rest => skipLoop fuel brackets rest

/-- Skips one value. Each step takes a token, so there are no more steps than characters. -/
def skip (s : List Char) : Except Fault (List Char) := skipLoop (s.length + 1) [] s

end Clearance.Json
