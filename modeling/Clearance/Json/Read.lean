import Clearance.Json.Skip

/-!
Readers of typed values: texts, truth values, lists, maps, variants and records. A record may stand
as an object, its members in any order, or as a list in the order of its fields.
-/
namespace Clearance.Json

/-- The fault of a value that is none of the expected kind. A value of one token is taken first, so a
fault inside it comes before the mismatch. -/
def mismatch (expected : String) (s : List Char) : Fault :=
  let after (r : Except Fault (Found × List Char)) : Fault :=
    match r with
    | .ok (found, rest) => .before (.mismatch found expected) rest
    | .error fault => fault
  match s with
  | [] => .before .endInValue []
  | 'n' :: rest => after ((word? "ull".toList rest).map (Found.null, ·))
  | 't' :: rest => after ((word? "rue".toList rest).map (Found.boolean true, ·))
  | 'f' :: rest => after ((word? "alse".toList rest).map (Found.boolean false, ·))
  | '-' :: rest => after (number true rest)
  | '"' :: rest => after ((string rest).map fun (t, rest) => (Found.text t, rest))
  | '[' :: _ => .before (.mismatch .sequence expected) s
  | '\x7b' :: _ => .before (.mismatch .map expected) s
  | c :: _ => if c.isDigit then after (number false s) else .past .expectedValue s

def text (expected : String) : Reader String := fun s =>
  match skipGap s with
  | '"' :: rest => string rest
  | rest => .error (mismatch expected rest)

def boolean : Reader Bool := fun s =>
  match skipGap s with
  | 't' :: rest => (word? "rue".toList rest).map (true, ·)
  | 'f' :: rest => (word? "alse".toList rest).map (false, ·)
  | rest => .error (mismatch "a boolean" rest)

def unit : Reader Unit := fun s =>
  match skipGap s with
  | 'n' :: rest => (word? "ull".toList rest).map ((), ·)
  | rest => .error (mismatch "unit" rest)

def nullable {α : Type} (item : Reader α) : Reader (Option α) := fun s =>
  match skipGap s with
  | 'n' :: rest => (word? "ull".toList rest).map (none, ·)
  | rest => (item rest).map fun (a, rest) => (some a, rest)

def variantName {α : Type} (known : List (String × α)) : Reader α := fun s => do
  let (name, rest) ← string s
  match known.lookup name with
  | some a => .ok (a, rest)
  | none => .error (.before (.unknownVariant name (known.map Prod.fst)) rest)

/-- A variant: its name, or an object with the name and null. -/
def variant {α : Type} (known : List (String × α)) : Reader α := fun s =>
  match skipGap s with
  | [] => .error (.before .endInValue [])
  | '"' :: rest => variantName known rest
  | '\x7b' :: rest =>
    match skipGap rest with
    | [] => .error (.before .endInObject [])
    | '\x7d' :: rest => .error (.past .expectedValue ('\x7d' :: rest))
    | '"' :: rest => do
      let (a, rest) ← variantName known rest
      let ((), rest) ← unit (← colon rest)
      match skipGap rest with
      | '\x7d' :: rest => .ok (a, rest)
      | [] => .error (.before .endInObject [])
      | rest => .error (.before .expectedValue rest)
    | rest => .error (.past .keyNotString rest)
  | rest => .error (.past .expectedValue rest)

inductive Next (α : Type) where
  | closed (rest : List Char)
  | item (a : α) (rest : List Char)

/-- The next element of a list starts where this says, or the list has ended. -/
def nextElement (first : Bool) (s : List Char) : Except Fault (Next Unit) :=
  match skipGap s with
  | [] => .error (.before .endInList [])
  | ']' :: rest => .ok (.closed rest)
  | ',' :: rest =>
    if first then .ok (.item () (',' :: rest))
    else
      match skipGap rest with
      | [] => .error (.before .endInValue [])
      | ']' :: rest => .error (.past .trailingComma (']' :: rest))
      | rest => .ok (.item () rest)
  | rest => if first then .ok (.item () rest) else .error (.past .expectedListSeparator rest)

def nextName (first : Bool) (s : List Char) : Except Fault (Next String) :=
  let name (s : List Char) : Except Fault (Next String) :=
    (string s).map fun (k, rest) => .item k rest
  match skipGap s with
  | [] => .error (.before .endInObject [])
  | '\x7d' :: rest => .ok (.closed rest)
  | '"' :: rest =>
    if first then name rest else .error (.past .expectedObjectSeparator ('"' :: rest))
  | ',' :: rest =>
    if first then .error (.past .keyNotString (',' :: rest))
    else
      match skipGap rest with
      | '"' :: rest => name rest
      | [] => .error (.before .endInValue [])
      | '\x7d' :: rest => .error (.past .trailingComma ('\x7d' :: rest))
      | rest => .error (.past .keyNotString rest)
  | rest =>
    if first then .error (.past .keyNotString rest)
    else .error (.past .expectedObjectSeparator rest)

def elementsLoop {α : Type} (item : Reader α) : Nat → List α → Reader (List α)
  | 0, _, s => .error (.before .endInList s)
  | fuel + 1, taken, s => do
    match ← nextElement taken.isEmpty s with
    | .closed rest => .ok (taken.reverse, rest)
    | .item () rest =>
      let (a, rest) ← item rest
      elementsLoop item fuel (a :: taken) rest

def elements {α : Type} (item : Reader α) : Reader (List α) := fun s =>
  match skipGap s with
  | '[' :: rest => elementsLoop item (rest.length + 1) [] rest
  | rest => .error (mismatch "a sequence" rest)

def entriesLoop {α : Type} (item : Reader α) :
    Nat → List (String × α) → Reader (List (String × α))
  | 0, _, s => .error (.before .endInObject s)
  | fuel + 1, taken, s => do
    match ← nextName taken.isEmpty s with
    | .closed rest => .ok (taken.reverse, rest)
    | .item k rest =>
      let (a, rest) ← item (← colon rest)
      entriesLoop item fuel ((k, a) :: taken) rest

/-- All entries of a map in the order of the text, also those that a later one replaces. -/
def entries {α : Type} (item : Reader α) : Reader (List (String × α)) := fun s =>
  match skipGap s with
  | '\x7b' :: rest => entriesLoop item (rest.length + 1) [] rest
  | rest => .error (mismatch "a map" rest)

/-- A field of a record: its name, whether it must be given, and what its value changes. -/
structure Field (σ : Type) where
  name : String
  required : Bool := false
  read : Reader (σ → σ)

def Field.of {σ α : Type} (name : String) (item : Reader α) (set : α → σ → σ) : Field σ where
  name := name
  read := fun s => (item s).map fun (a, rest) => (set a, rest)

structure Record (σ : Type) where
  name : String
  fields : List (Field σ)
  start : σ

namespace Record
variable {σ : Type}

/-- The rest of an object where its end was looked for. -/
def soughtEnd (s : List Char) : List Char :=
  match skipGap s with
  | '\x7d' :: rest => rest
  | rest => rest

def membersLoop (r : Record σ) : Nat → Bool → List String → σ → Reader σ
  | 0, _, _, _, s => .error (.before .endInObject s)
  | fuel + 1, first, seen, v, s => do
    match ← nextName first s with
    | .closed rest =>
      match r.fields.find? fun f => f.required && !seen.contains f.name with
      | some f => .error (.before (.missingField f.name) rest)
      | none => .ok (v, rest)
    | .item k rest =>
      match r.fields.find? (·.name == k) with
      | none => membersLoop r fuel false seen v (← skip (← colon rest))
      | some f =>
        if seen.contains k then .error (.before (.duplicateField k) (soughtEnd rest))
        else
          let (change, rest) ← f.read (← colon rest)
          membersLoop r fuel false (k :: seen) (change v) rest

def endOfList (s : List Char) : Except Fault (List Char) :=
  match skipGap s with
  | ']' :: rest => .ok rest
  | ',' :: rest =>
    match skipGap rest with
    | ']' :: rest => .error (.past .trailingComma (']' :: rest))
    | rest => .error (.past .trailingCharacters rest)
  | [] => .error (.before .endInList [])
  | rest => .error (.past .trailingCharacters rest)

def positions (r : Record σ) : Bool → List (Field σ) → σ → Reader σ
  | _, [], v, s => do .ok (v, ← endOfList s)
  | first, f :: fs, v, s => do
    match ← nextElement first s with
    | .closed rest =>
      if f.required then
        .error (.before (.emptyList s!"struct {r.name} with {r.fields.length} elements") rest)
      else .ok (v, rest)
    | .item () rest =>
      let (change, rest) ← f.read rest
      positions r false fs (change v) rest

def reader (r : Record σ) : Reader σ := fun s =>
  match skipGap s with
  | '\x7b' :: rest => r.membersLoop (rest.length + 1) true [] r.start rest
  | '[' :: rest => r.positions true r.fields r.start rest
  | rest => .error (mismatch s!"struct {r.name}" rest)

end Record

def parse {α : Type} (read : Reader α) (t : String) : Except Error α :=
  let whole : Except Fault α := do
    let (a, rest) ← read t.toList
    match skipGap rest with
    | [] => .ok a
    | rest => .error (.past .trailingCharacters rest)
  whole.mapError (Fault.locate t.toList)

end Clearance.Json
