import Clearance.Counter

/-!
Counters as a text that monitoring reads: for each name a heading and its counters, with labels in the
order in which they were given, and an empty line after them.
-/
namespace Clearance.Counter

def isNameChar (c : Char) : Bool := c.isAlphanum || c == '_' || c == ':'

def exposedName (name : String) : String :=
  String.ofList (name.toList.map fun c => if isNameChar c then c else '_')

/-- The value of a label between quotes. Two backslashes stand for one that is escaped already, so
they are written as they are; one before a quote is taken for the quote's escape. -/
def exposedValue (pending : Bool) : List Char → List Char
  | [] => if pending then ['\\', '\\'] else []
  | '\n' :: cs => '\\' :: 'n' :: exposedValue pending cs
  | '"' :: cs => '\\' :: '"' :: exposedValue false cs
  | '\\' :: cs =>
    if pending then '\\' :: '\\' :: exposedValue false cs else exposedValue true cs
  | c :: cs =>
    if pending then '\\' :: '\\' :: c :: exposedValue false cs else c :: exposedValue false cs

def exposedLabel (l : Label) : String :=
  l.key ++ "=\"" ++ String.ofList (exposedValue false l.value.toList) ++ "\""

def exposedLabels (l : List Label) : String :=
  if l.isEmpty then "" else "\x7b" ++ String.intercalate "," (l.map exposedLabel) ++ "\x7d"

def exposedCounter (i : Increment) (count : Nat) : String :=
  exposedName i.name ++ exposedLabels i.labels ++ " " ++ toString count ++ "\n"

/-- The order in which counters are let out. They are kept by hash with a seed of each run, so that
nothing is known of it but that none is lost. -/
structure Drain where
  order : List String → List String
  perm : ∀ l, (order l).Perm l

/-- As they were counted first. -/
def Drain.counted : Drain := ⟨id, .refl⟩

def exposition (d : Drain) (is : List Increment) : String :=
  let blocks := (is.map (·.name)).eraseDups.map fun name =>
    let counters := (is.filter (·.name == name)).eraseDups
    "# TYPE " ++ exposedName name ++ " counter\n" ++
      String.join (d.order (counters.map fun i => exposedCounter i (is.count i))) ++ "\n"
  String.join (d.order blocks)

end Clearance.Counter
