import Clearance.Counter.Exposition
import Clearance.Proofs.Text.Ascii

/-!
How the parts of a counter are written where monitoring reads them: its name, and its labels with their
values between quotes. This is told by relations between what is written and what it stands for, apart
from the program that writes it.
-/
namespace Clearance.Counter

/-! ### Names -/

/-- The characters of names: Latin letters, digits, the underscore and the colon. -/
def NameChar (c : Char) : Prop :=
  ('A' ≤ c ∧ c ≤ 'Z') ∨ ('a' ≤ c ∧ c ≤ 'z') ∨ ('0' ≤ c ∧ c ≤ '9') ∨ c = '_' ∨ c = ':'

inductive NameCharAs : Char → Char → Prop where
  | kept {c : Char} : NameChar c → NameCharAs c c
  | replaced {c : Char} : ¬ NameChar c → NameCharAs c '_'

/-- A name with an underscore for every character that no name may have. -/
def NameAs (name text : String) : Prop := List.Forall₂ NameCharAs name.toList text.toList

theorem isNameChar_iff (c : Char) : isNameChar c = true ↔ NameChar c := by
  unfold isNameChar NameChar
  rw [Bool.or_eq_true, Bool.or_eq_true, beq_iff_eq, beq_iff_eq, Text.isAlphanum_iff]
  simp only [or_assoc, Text.Capital]

theorem nameAs_exposedName (name : String) : NameAs name (exposedName name) := by
  unfold NameAs exposedName
  rw [String.toList_ofList]
  refine List.forall₂_map_right_iff.2 (List.forall₂_same.2 fun c _ => ?_)
  split
  · rename_i allowed
    exact .kept ((isNameChar_iff c).1 allowed)
  · rename_i refused
    exact .replaced fun allowed => refused ((isNameChar_iff c).2 allowed)

/-! ### Values -/

/-- A character that stands for itself. -/
def Plain (c : Char) : Prop := c ≠ '\n' ∧ c ≠ '"' ∧ c ≠ '\\'

def lineEnds (n : Nat) : List Char := List.replicate n '\n'

def writtenLineEnds (n : Nat) : List Char := (List.replicate n ['\\', 'n']).flatten

/-- A value and what stands for it between the quotes. What a backslash comes to depends on what follows
it, where line ends in between do not count: two of them are written as they are, one before a quote is
lost in the quote's own, and any other is doubled. -/
inductive ValueAs : List Char → List Char → Prop where
  | nil : ValueAs [] []
  | plain {c : Char} {s t : List Char} : Plain c → ValueAs s t → ValueAs (c :: s) (c :: t)
  | lineEnd {s t : List Char} : ValueAs s t → ValueAs ('\n' :: s) ('\\' :: 'n' :: t)
  | quote {s t : List Char} : ValueAs s t → ValueAs ('"' :: s) ('\\' :: '"' :: t)
  | backslashes (n : Nat) {s t : List Char} : ValueAs s t →
    ValueAs ('\\' :: (lineEnds n ++ '\\' :: s)) (writtenLineEnds n ++ '\\' :: '\\' :: t)
  | beforeQuote (n : Nat) {s t : List Char} : ValueAs s t →
    ValueAs ('\\' :: (lineEnds n ++ '"' :: s)) (writtenLineEnds n ++ '\\' :: '"' :: t)
  | beforePlain (n : Nat) {c : Char} {s t : List Char} : Plain c → ValueAs s t →
    ValueAs ('\\' :: (lineEnds n ++ c :: s)) (writtenLineEnds n ++ '\\' :: '\\' :: c :: t)
  | last (n : Nat) : ValueAs ('\\' :: lineEnds n) (writtenLineEnds n ++ ['\\', '\\'])

theorem lineEnds_append_cons (n : Nat) (s : List Char) :
    lineEnds n ++ '\n' :: s = lineEnds (n + 1) ++ s := by
  rw [lineEnds, lineEnds, List.replicate_succ', List.append_assoc]
  rfl

theorem writtenLineEnds_append_cons (n : Nat) (s : List Char) :
    writtenLineEnds n ++ '\\' :: 'n' :: s = writtenLineEnds (n + 1) ++ s := by
  rw [writtenLineEnds, writtenLineEnds, List.replicate_succ', List.flatten_append, List.append_assoc]
  rfl

theorem exposedValue_plain {c : Char} (plain : Plain c) (pending : Bool) (s : List Char) :
    exposedValue pending (c :: s) =
      if pending then '\\' :: '\\' :: c :: exposedValue false s else c :: exposedValue false s := by
  obtain ⟨lineEnd, quote, backslash⟩ := plain
  rw [exposedValue]
  · exact lineEnd
  · exact quote
  · exact backslash

/-- The second part is about a backslash that is still to be written, after which there have been line
ends only. -/
theorem valueAs_exposedValue (s : List Char) :
    ValueAs s (exposedValue false s) ∧
      ∀ n, ValueAs ('\\' :: (lineEnds n ++ s)) (writtenLineEnds n ++ exposedValue true s) := by
  induction s with
  | nil =>
    refine ⟨.nil, fun n => ?_⟩
    rw [List.append_nil]
    exact .last n
  | cons c s ih =>
    obtain ⟨written, pending⟩ := ih
    by_cases plain : Plain c
    · simp only [exposedValue_plain plain]
      exact ⟨.plain plain written, fun n => .beforePlain n plain written⟩
    · obtain rfl | rfl | rfl : c = '\n' ∨ c = '"' ∨ c = '\\' := by
        unfold Plain at plain
        tauto
      · refine ⟨.lineEnd written, fun n => ?_⟩
        rw [lineEnds_append_cons, exposedValue, writtenLineEnds_append_cons]
        exact pending (n + 1)
      · exact ⟨.quote written, fun n => .beforeQuote n written⟩
      · exact ⟨pending 0, fun n => .backslashes n written⟩

/-! ### Labels -/

def LabelAs (l : Label) (text : String) : Prop :=
  ∃ value : String, ValueAs l.value.toList value.toList ∧ text = l.key ++ "=\"" ++ value ++ "\""

theorem labelAs_exposedLabel (l : Label) : LabelAs l (exposedLabel l) := by
  refine ⟨String.ofList (exposedValue false l.value.toList), ?_, rfl⟩
  rw [String.toList_ofList]
  exact (valueAs_exposedValue l.value.toList).1

end Clearance.Counter
