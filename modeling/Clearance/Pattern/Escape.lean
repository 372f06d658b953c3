import Clearance.Pattern
import Clearance.Text.Blank
import Clearance.Text.Hex

/-!
What a backslash in a pattern introduces, and the blanks and comments that a verbose pattern may
have. A pattern never holds a closing brace, so whatever needs one is not read.
-/
namespace Clearance.Pattern

/-- Skips blanks and comments. A comment goes from its sign to the end of the line. -/
def skipBlanks (inComment : Bool) : List Char → List Char
  | [] => []
  | c :: s =>
    if inComment then skipBlanks (c != '\n') s
    else if Text.isBlank c then skipBlanks false s
    else if c == '#' then skipBlanks true s
    else c :: s

/-- Only verbose patterns have blanks that do not count. -/
def skip (verbose : Bool) (s : List Char) : List Char := if verbose then skipBlanks false s else s

/-- The next character that counts; of a comment only its sign is passed. -/
def ahead? (verbose : Bool) (s : List Char) : Option Char :=
  if verbose then
    match s.dropWhile Text.isBlank with
    | '#' :: rest => (rest.dropWhile Text.isBlank).head?
    | rest => rest.head?
  else s.head?

inductive Escape where
  | literal (l : Literal)
  | named (negated : Bool)
  | anchor
  | wordBoundary

def hexDigits (verbose : Bool) : Nat → List Char → Option (List Char × List Char)
  | 0, s => some ([], s)
  | count + 1, s =>
    match skip verbose s with
    | [] => none
    | d :: rest =>
      if (Text.hexDigit? d).isSome then
        (hexDigits verbose count rest).map fun (ds, rest) => (d :: ds, rest)
      else none

def numbered (verbose isByte : Bool) (count : Nat) (s : List Char) :
    Option (Escape × List Char) := do
  let (ds, rest) ← hexDigits verbose count s
  let n ← Text.hexNumber? ds
  if n.isValidChar then some (.literal ⟨Char.ofNat n, isByte⟩, rest) else none

/-- Characters that stand for themselves after a backslash: those of ASCII that are neither letters
nor digits, without the angle brackets. -/
def isEscapable (c : Char) : Bool :=
  c.toNat < 128 && !c.isAlphanum && c != '<' && c != '>'

def controls : List (Char × Char) :=
  [('a', '\x07'), ('f', '\x0c'), ('t', '\t'), ('n', '\n'), ('r', '\r'), ('v', '\x0b')]

def escape (verbose : Bool) : List Char → Option (Escape × List Char)
  | [] => none
  | 'x' :: rest => numbered verbose true 2 rest
  | 'u' :: rest => numbered verbose false 4 rest
  | 'U' :: rest => numbered verbose false 8 rest
  | c :: rest =>
    if ['d', 's', 'w'].contains c then some (.named false, rest)
    else if ['D', 'S', 'W'].contains c then some (.named true, rest)
    else if ['A', 'z'].contains c then some (.anchor, rest)
    else if ['b', 'B', '<', '>'].contains c then some (.wordBoundary, rest)
    else if isEscapable c then some (.literal ⟨c, false⟩, rest)
    else (controls.lookup c).map fun d => (.literal ⟨d, false⟩, rest)

end Clearance.Pattern
