import Clearance.Decimal.Layout
import Clearance.Text.Quoted

/-!
What can be wrong with a JSON text, where, and how it is told. A reader says how many bytes of the
text were left at the fault; from these the line and the column follow.
-/
namespace Clearance.Json

inductive Found where
  | null
  | boolean (b : Bool)
  | integer (i : Int)
  | real (x : Float)
  | text (s : String)
  | sequence
  | map

/-- Numbers from `1e16` on, and those below `1e-5`, are written with an exponent. -/
def numberLayout : Decimal.Layout := ⟨.even, fun e => decide (-5 ≤ e) && decide (e ≤ 15), ".0"⟩

def Found.message : Found → String
  | .null => "null"
  | .boolean b => s!"boolean `{b}`"
  | .integer i => s!"integer `{i}`"
  | .real x => s!"floating point `{numberLayout.number x}`"
  | .text s => "string " ++ Text.quoted s
  | .sequence => "sequence"
  | .map => "map"

inductive Cause where
  | endInValue
  | endInList
  | endInObject
  | endInString
  | expectedWord
  | expectedValue
  | expectedColon
  | expectedListSeparator
  | expectedObjectSeparator
  | trailingComma
  | trailingCharacters
  | keyNotString
  | invalidEscape
  | invalidNumber
  | numberTooLarge
  | controlCharacter
  | loneSurrogate
  | brokenSurrogatePair
  | missingField (name : String)
  | duplicateField (name : String)
  | unknownVariant (name : String) (known : List String)
  | emptyList (expected : String)
  | mismatch (found : Found) (expected : String)

private def ticked (s : String) : String := "`" ++ s ++ "`"

def oneOf (known : List String) : String :=
  match known.map ticked with
  | [a, b] => a ++ " or " ++ b
  | names => "one of " ++ String.intercalate ", " names

def Cause.message : Cause → String
  | .endInValue => "EOF while parsing a value"
  | .endInList => "EOF while parsing a list"
  | .endInObject => "EOF while parsing an object"
  | .endInString => "EOF while parsing a string"
  | .expectedWord => "expected ident"
  | .expectedValue => "expected value"
  | .expectedColon => "expected `:`"
  | .expectedListSeparator => "expected `,` or `]`"
  | .expectedObjectSeparator => "expected `,` or `\x7d`"
  | .trailingComma => "trailing comma"
  | .trailingCharacters => "trailing characters"
  | .keyNotString => "key must be a string"
  | .invalidEscape => "invalid escape"
  | .invalidNumber => "invalid number"
  | .numberTooLarge => "number out of range"
  | .controlCharacter => "control character (\\u0000-\\u001F) found while parsing a string"
  | .loneSurrogate => "lone leading surrogate in hex escape"
  | .brokenSurrogatePair => "unexpected end of hex escape"
  | .missingField name => "missing field " ++ ticked name
  | .duplicateField name => "duplicate field " ++ ticked name
  | .unknownVariant name known => "unknown variant " ++ ticked name ++ ", expected " ++ oneOf known
  | .emptyList expected => "invalid length 0, expected " ++ expected
  | .mismatch found expected => "invalid type: " ++ found.message ++ ", expected " ++ expected

def bytes (s : List Char) : Nat := s.foldl (fun n c => n + c.utf8Size) 0

structure Fault where
  cause : Cause
  left : Nat

namespace Fault

/-- Found with nothing more than the text before `rest` taken. -/
def before (cause : Cause) (rest : List Char) : Fault := ⟨cause, bytes rest⟩

/-- Found on the first byte of `rest`, which counts as taken; at the end of the text there is none. -/
def past (cause : Cause) (rest : List Char) : Fault := ⟨cause, bytes rest - 1⟩

end Fault

structure Error where
  cause : Cause
  line : Nat
  column : Nat

def Error.message (e : Error) : String := s!"{e.cause.message} at line {e.line} column {e.column}"

/-- The line and column after `taken` bytes. Columns count bytes, lines start at one. -/
def position (taken : Nat) (text : List Char) : Nat × Nat :=
  let (_, line, column) := text.foldl
    (fun (n, line, column) c =>
      if taken ≤ n then (n, line, column)
      else if c == '\n' then (n + 1, line + 1, 0)
      else (n + c.utf8Size, line, column + min c.utf8Size (taken - n)))
    (0, 1, 0)
  (line, column)

def Fault.locate (text : List Char) (f : Fault) : Error :=
  let (line, column) := position (bytes text - f.left) text
  ⟨f.cause, line, column⟩

end Clearance.Json
