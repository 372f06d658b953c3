import Clearance.Event
import Clearance.Pattern.Read
import Clearance.Table
import Clearance.Text.Ascii
import Clearance.Text.Bytes

/-!
Which events are logged. A filter is a list of directives between commas: a level for everything, a
target that sources start with, or both with a sign between them. A directive may ask for fields of an
event. The most specific directive that an event falls under decides; an event under none is not
logged.
-/
namespace Clearance

/-- The gravest severities up to this one, or none at all. -/
abbrev Threshold := Option Severity

namespace Threshold

def names : List (String × Threshold) := [
  ("off", none), ("error", some .error), ("warn", some .warn), ("info", some .info),
  ("debug", some .debug), ("trace", some .trace)]

def parse? (cs : List Char) : Option Threshold :=
  let ds := match cs with
    | '+' :: rest => rest
    | rest => rest
  let byPlace :=
    if ds ≠ [] ∧ ds.all Char.isDigit then
      (names[ds.foldl (fun n d => 10 * n + (d.toNat - '0'.toNat)) 0]?).map Prod.snd
    else none
  byPlace.or (names.lookup (Text.lower (String.ofList cs)))

def admits (t : Threshold) (s : Severity) : Bool :=
  match t with
  | none => false
  | some last => s.rank ≤ last.rank

end Threshold

namespace Event

/-- What a directive is about. A span or the value of a field leaves no event to it. -/
structure Directive where
  target : Option String := none
  span : Option String := none
  fields : List String := []
  values : Bool := false
  level : Threshold := some .trace
deriving DecidableEq, Repr

namespace Directive

/-- Where in a directive a character stands, and where the part began that it belongs to. -/
inductive Place where
  | start
  | name (first : Nat)
  | span (first : Nat)
  | field (first : Nat)
  | afterFields
  | afterSpan
  | level (first : Nat)

def isExponent : List Char → Bool
  | [] => true
  | c :: s =>
    let ds := match s with
      | '+' :: ds | '-' :: ds => ds
      | ds => ds
    (c == 'e' || c == 'E') && !ds.isEmpty && ds.all Char.isDigit

def isNumber (s : List Char) : Bool :=
  let s := match s with
    | '+' :: rest | '-' :: rest => rest
    | rest => rest
  let (ds, rest) := s.span Char.isDigit
  let (fs, rest) := match rest with
    | '.' :: rest => rest.span Char.isDigit
    | rest => ([], rest)
  ["inf", "infinity", "nan"].contains (Text.lower (String.ofList s)) ||
    (!(ds ++ fs).isEmpty && isExponent rest)

/-- The value of a field is a number or a pattern; truth values are patterns, too. -/
def isFieldValue (s : List Char) : Bool := isNumber s || Pattern.isPattern s

def withField (d : Directive) (cs : List Char) : Option Directive :=
  let add (name : List Char) (hasValue : Bool) : Directive :=
    { d with fields := d.fields ++ [String.ofList name], values := d.values || hasValue }
  match cs.span (· != '=') with
  | ([], []) => none
  | (name, '=' :: rest) =>
    if isFieldValue (rest.takeWhile (· != '=')) then some (add name true) else none
  | (name, _) => some (add name false)

def startsName (c : Char) : Bool :=
  c == '-' || c == ':' || c == '_' || Text.isAlphanumeric c

/-- One character, with the parts cut out of the text by their places, counted in bytes. -/
def step (cut : Nat → Nat → List Char) (i : Nat) (c : Char) : Place × Directive →
    Option (Place × Directive)
  | (.start, d) =>
    if c = '[' then some (.span (i + 1), d)
    else if startsName c then some (.name i, d)
    else none
  | (.name first, d) =>
    if c = '=' then some (.level (i + 1), { d with target := some (String.ofList (cut first i)) })
    else if c = '[' then
      some (.span (i + 1), { d with target := some (String.ofList (cut first i)) })
    else some (.name first, d)
  | (.span first, d) =>
    if c = ']' then some (.afterSpan, { d with span := some (String.ofList (cut first i)) })
    else if c = '\x7b' then
      let name := cut first i
      some (.field (i + 1),
        { d with span := if name.isEmpty then none else some (String.ofList name) })
    else some (.span first, d)
  | (.field first, d) =>
    if c = '\x7d' then (d.withField (cut first i)).map (.afterFields, ·)
    else some (.field first, d)
  | (.afterFields, d) => if c = ']' then some (.afterSpan, d) else none
  | (.afterSpan, d) => if c = '=' then some (.level (i + 1), d) else none
  | (.level first, d) => some (.level first, d)

def steps (cut : Nat → Nat → List Char) : Nat → List Char → Place × Directive →
    Option (Place × Directive)
  | _, [], state => some state
  | i, c :: cs, state => (step cut i c state).bind (steps cut (i + c.utf8Size) cs)

/-- Reads a directive. Places are counted without the blanks before it, but parts are cut out with
them, so that a directive after a blank is about no source. -/
def parse? (text : List Char) : Option Directive := do
  let cut (first last : Nat) := Text.takeBytes (last - first) (Text.dropBytes first text)
  let (place, d) ← steps cut 0 (Text.trim text) (.start, {})
  match place with
  | .name first =>
    let name := Text.dropBytes first text
    match Threshold.parse? name with
    | some level => some { d with level }
    | none => some { d with target := some (String.ofList name) }
  | .level first =>
    let level := Text.dropBytes first text
    if level.isEmpty then some d else some { d with level := ← Threshold.parse? level }
  | .afterSpan => some d
  | _ => none

def isStatic (d : Directive) : Bool := d.span.isNone && !d.values

end Directive

structure Scope where
  target : Option String
  fields : List String
deriving DecidableEq, Repr

/-- The more specific first: longer targets, then more fields. -/
instance : Ord Scope where
  compare a b :=
    (compare (b.target.map String.utf8ByteSize) (a.target.map String.utf8ByteSize)).then <|
      (compare b.fields.length a.fields.length).then <|
        (compare b.target a.target).then (compare b.fields a.fields)

def Scope.covers (s : Scope) (e : Event) : Bool :=
  s.target.all (fun t => e.source.startsWith t) && s.fields.all e.fieldNames.contains

structure Filter where
  entries : List (Scope × Threshold)

namespace Filter

/-- Of directives about the same the last counts; those without fields are taken first. -/
def ofDirectives (l : List Directive) : Filter :=
  let (plain, withFields) := (l.filter Directive.isStatic).partition (·.fields.isEmpty)
  ⟨(plain ++ withFields).foldl (fun es d => putEntry ⟨d.target, d.fields⟩ d.level es) []⟩

def admits (f : Filter) (e : Event) : Bool :=
  match f.entries.find? (·.1.covers e) with
  | some (_, t) => t.admits e.severity
  | none => false

def parts (text : String) : List (List Char) :=
  (text.toList.splitOn ',').filter (!·.isEmpty)

def parse? (text : String) : Option Filter :=
  ((parts text).mapM Directive.parse?).map ofDirectives

def parseLossy (text : String) : Filter × List String :=
  let l := parts text
  (ofDirectives (l.filterMap Directive.parse?),
    (l.filter fun p => (Directive.parse? p).isNone).map String.ofList)

end Filter
end Event
end Clearance
