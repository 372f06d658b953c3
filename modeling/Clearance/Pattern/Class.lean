import Clearance.Pattern.Escape

/-!
Sets of characters in brackets: characters, ranges, classes with a name, and sets within sets, with
operations between them that apply from left to right.
-/
namespace Clearance.Pattern

/-- A union of one set is that set. -/
def CharSet.unionOf : List CharSet → CharSet
  | [s] => s
  | l => .union l

/-- The set that was read so far: an operation waits for its right side. -/
def CharSet.joined (left : Option CharSet) (taken : List CharSet) : CharSet :=
  match left with
  | none => unionOf taken.reverse
  | some l => .operation l (unionOf taken.reverse)

def asciiClasses : List String := [
  "alnum", "alpha", "ascii", "blank", "cntrl", "digit", "graph", "lower", "print", "punct", "space",
  "upper", "word", "xdigit"]

/-- A class by its name between colons, after a bracket: whether it is negated, and the rest. -/
def asciiClass? : List Char → Option (Bool × List Char)
  | ':' :: s =>
    let (negated, s) := match s with
      | '^' :: rest => (true, rest)
      | rest => (false, rest)
    match s.span (· != ':') with
    | (name, ':' :: ']' :: rest) =>
      if asciiClasses.contains (String.ofList name) then some (negated, rest) else none
    | _ => none
  | _ => none

def hyphens (verbose : Bool) : Nat → List Char → List CharSet × List Char
  | fuel + 1, '-' :: rest =>
    let (taken, rest) := hyphens verbose fuel (skip verbose rest)
    (.literal ⟨'-', false⟩ :: taken, rest)
  | _, rest => ([], rest)

/-- The start of a set after its bracket: whether it is negated, and what stands for itself only
there. That is any number of hyphens, or a closing bracket. -/
def setStart (verbose : Bool) (s : List Char) : Bool × List CharSet × List Char :=
  let (negated, s) := match skip verbose s with
    | '^' :: rest => (true, skip verbose rest)
    | rest => (false, rest)
  match hyphens verbose s.length s with
  | ([], ']' :: rest) => (negated, [.literal ⟨']', false⟩], rest)
  | (taken, rest) => (negated, taken, rest)

def member (verbose : Bool) : List Char → Option (Escape × List Char)
  | [] => none
  | '\\' :: rest => escape verbose rest
  | c :: rest => some (.literal ⟨c, false⟩, rest)

def Escape.toSet? : Escape → Option CharSet
  | .literal l => some (.literal l)
  | .named negated => some (.named negated)
  | .anchor | .wordBoundary => none

/-- A member of a set, or a range between two characters. A hyphen before the closing bracket or
another hyphen makes no range. -/
def memberOrRange (verbose : Bool) (s : List Char) : Option (CharSet × List Char) := do
  let (a, rest) ← member verbose s
  match skip verbose rest with
  | '-' :: more =>
    if [some ']', some '-'].contains (ahead? verbose more) then some (← a.toSet?, '-' :: more)
    else
      match a, ← member verbose (skip verbose more) with
      | .literal first, (.literal last, rest) =>
        if first.char ≤ last.char then some (.range first last, rest) else none
      | _, _ => none
  | rest => some (← a.toSet?, rest)

def setTail (verbose : Bool) :
    Nat → Bool → Option CharSet → List CharSet → List Char → Option (CharSet × List Char)
  | 0, _, _, _, _ => none
  | fuel + 1, negated, left, taken, s =>
    match skip verbose s with
    | ']' :: rest => some (.bracketed negated (.joined left taken), rest)
    | '[' :: rest =>
      match asciiClass? rest with
      | some (n, rest) => setTail verbose fuel negated left (.ascii n :: taken) rest
      | none => do
        let (n, first, rest) := setStart verbose rest
        let (inner, rest) ← setTail verbose fuel n none first rest
        setTail verbose fuel negated left (inner :: taken) rest
    | '&' :: '&' :: rest | '-' :: '-' :: rest | '~' :: '~' :: rest =>
      setTail verbose fuel negated (some (.joined left taken)) [] rest
    | s => do
      let (item, rest) ← memberOrRange verbose s
      setTail verbose fuel negated left (item :: taken) rest

def bracketed (verbose : Bool) (s : List Char) : Option (CharSet × List Char) :=
  let (negated, first, rest) := setStart verbose s
  setTail verbose (s.length + 1) negated none first rest

end Clearance.Pattern
