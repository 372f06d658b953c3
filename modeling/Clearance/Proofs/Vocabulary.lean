import Clearance.Proofs.Json.Printing
import Clearance.Proofs.Text.Ascii
import Clearance.Resource

/-!
The names of kinds and levels. A name given by itself may be in any case of its ASCII letters, and in JSON
it may not. The two readers and what is printed are of the same names.
-/
namespace Clearance
open Json

theorem Json.escaped_capital {c : Char} (h : Text.Capital c) : escaped c = [c] := by
  have printable : ¬ c < ' ' := Char.not_lt.2 (Char.le_trans (by decide) h.1)
  unfold escaped
  split <;> first | exact absurd h (by decide) | exact if_neg printable

namespace Vocabulary
variable {α : Type}

theorem lookup_map_iff {name : α → String} (inj : Function.Injective name) {l : List α} {s : String}
    {a : α} : (l.map fun a => (name a, a)).lookup s = some a ↔ s = name a ∧ a ∈ l := by
  induction l with
  | nil => simp
  | cons b l ih =>
    rw [List.map_cons, List.lookup_cons]
    by_cases here : s = name b
    · subst here
      have found : b = a ↔ name b = name a ∧ a ∈ b :: l :=
        ⟨fun same => same ▸ ⟨rfl, List.mem_cons_self⟩, fun h => inj h.1⟩
      simpa using found
    · have other : s = name a → (a ∈ b :: l ↔ a ∈ l) := by
        rintro rfl
        have apart : a ≠ b := fun same => here (congrArg name same)
        simp [apart]
      rw [beq_false_of_ne here, ih, and_congr_right other]

/-- A vocabulary has a name for each thing of a type, and in JSON the same one. The names are of capitals,
and none is a part of another. -/
structure Spells (v : Vocabulary α) (name : α → String) : Prop where
  lookup_iff : ∀ s a, v.names.lookup s = some a ↔ s = name a
  json_iff : ∀ s a, v.jsonNames.lookup s = some a ↔ s = name a
  capital : ∀ a, ∀ c ∈ (name a).toList, Text.Capital c
  apart : ∀ a b, (name a).toList <:+: (name b).toList → a = b

theorem spells_of {name declared : α → String} {title : String} {all : List α} (complete : ∀ a, a ∈ all)
    (same : ∀ a, Text.upper (declared a) = name a) (capital : ∀ a, ∀ c ∈ (name a).toList, Text.Capital c)
    (apart : ∀ a b, (name a).toList <:+: (name b).toList → a = b) :
    (Vocabulary.of title name declared all).Spells name := by
  have inj : Function.Injective name := fun a b same => apart a b (same ▸ List.infix_refl _)
  have lookup (s : String) (a : α) : (all.map fun a => (name a, a)).lookup s = some a ↔ s = name a := by
    rw [lookup_map_iff inj, and_iff_left (complete a)]
  constructor
  · exact lookup
  · unfold Vocabulary.of
    simp only [same]
    exact lookup
  · exact capital
  · exact apart

variable {v : Vocabulary α} {name : α → String}

theorem parse_eq_ok (h : v.Spells name) {s : String} {a : α} :
    v.parse s = .ok a ↔ Text.RaisedTo s (name a) := by
  rw [Text.raisedTo_iff, ← h.lookup_iff]
  unfold parse
  cases v.names.lookup (Text.upper s) with
  | none => simp
  | some b => simp

theorem parse_eq_error (h : v.Spells name) {s : String} {e : UnknownName} :
    v.parse s = .error e ↔
      (∀ a, ¬ Text.RaisedTo s (name a)) ∧ e.vocabulary = v.title ∧ Text.RaisedTo s e.name := by
  simp only [Text.raisedTo_iff, ← h.lookup_iff, ← Option.eq_none_iff_forall_ne_some]
  obtain ⟨title, u⟩ := e
  unfold parse
  cases v.names.lookup (Text.upper s) with
  | none => simp [eq_comm]
  | some b => simp

theorem parse_name (h : v.Spells name) (a : α) : v.parse (name a) = .ok a :=
  (parse_eq_ok h).2 (Text.raisedTo_self (h.capital a))

theorem parse_reader_iff (h : v.Spells name) {t : String} {a : α} : Json.parse v.reader t = .ok a ↔
    WrittenAs t (.ofText (name a)) ∨ WrittenAs t (.ofMembers [(name a, .null)]) := by
  simp only [reader, parse_variant_iff, h.json_iff, exists_eq_left]

theorem parse_reader_string (h : v.Spells name) {t : String} {l : List Mark}
    (written : WrittenAs t (.text l)) {a : α} :
    Json.parse v.reader t = .ok a ↔ WrittenAs t (.ofText (name a)) := by
  have noObject : ¬ WrittenAs t (.ofMembers [(name a, .null)]) := written.not_object
  rw [parse_reader_iff h, or_iff_left noObject]

theorem parse_reader_text (h : v.Spells name) {t s : String} (written : WrittenAs t (.ofText s)) {a : α} :
    Json.parse v.reader t = .ok a ↔ s = name a := by
  rw [parse_reader_string h written]
  constructor
  · exact fun other => Datum.ofText_injective (written.unique .text other .text)
  · rintro rfl
    exact written

section Spelled
variable (h : v.Spells name) {s : String} {a b : α}
include h

theorem length_of_parse (parsed : v.parse s = .ok a) : s.length = (name a).length := by
  have same := List.Forall₂.length_eq ((parse_eq_ok h).1 parsed)
  rwa [String.length_toList, String.length_toList] at same

theorem isAlpha_of_parse (parsed : v.parse s = .ok a) : ∀ c ∈ s.toList, c.isAlpha = true := by
  intro c mem
  have upper := Text.raisedTo_iff.1 ((parse_eq_ok h).1 parsed)
  have mem' : c.toUpper ∈ (name a).toList := by
    rw [← upper, Text.toList_upper]
    exact List.mem_map_of_mem mem
  exact Text.isAlpha_of_toUpper (h.capital a _ mem').isAlpha

/-- Nothing goes before or after a name. -/
theorem parse_append {before after : String} (part : v.parse s = .ok a)
    (whole : v.parse (before ++ s ++ after) = .ok b) : before = "" ∧ after = "" := by
  -- one name in capitals is inside of another, which none is but in itself
  have inside : Text.upper before ++ name a ++ Text.upper after = name b := by
    rw [← Text.raisedTo_iff.1 ((parse_eq_ok h).1 part), ← Text.raisedTo_iff.1 ((parse_eq_ok h).1 whole),
      Text.upper_append, Text.upper_append]
  obtain rfl : a = b := by
    refine h.apart a b ⟨(Text.upper before).toList, (Text.upper after).toList, ?_⟩
    rw [← inside, String.toList_append, String.toList_append]
  have length := length_of_parse h whole
  rw [String.length_append, String.length_append, length_of_parse h part] at length
  exact ⟨String.length_eq_zero_iff.1 (by omega), String.length_eq_zero_iff.1 (by omega)⟩

theorem compact_name (a : α) : (Value.text (name a)).compact = "\"" ++ name a ++ "\"" := by
  have plain : (name a).toList.flatMap escaped = (name a).toList := by
    rw [List.flatMap_congr fun c mem => escaped_capital (h.capital a c mem), List.flatMap_singleton']
  rw [← String.toList_inj, Value.compact, String.toList_ofList, Value.compactChars, quote, plain]
  simp

end Spelled

/-- The names of a type are the same wherever they are read or printed, by themselves and in JSON. -/
structure Agrees (v : Vocabulary α) (name : α → String) (toValue : α → Value) : Prop where
  parsed : ∀ s a, v.parse s = .ok a ↔ Text.RaisedTo s (name a)
  casings : ∀ s a, v.parse s = .ok a ↔
    List.Forall₂ (fun c d => c = d ∨ c = d.toLower) s.toList (name a).toList
  plain : ∀ s a, v.parse s = .ok a → s.length = (name a).length ∧ ∀ c ∈ s.toList, c.isAlpha = true
  nothingMore : ∀ s a before after b, v.parse s = .ok a → v.parse (before ++ s ++ after) = .ok b →
    before = "" ∧ after = ""
  refused : ∀ s e, v.parse s = .error e ↔
    (∀ a, ¬ Text.RaisedTo s (name a)) ∧ e.vocabulary = v.title ∧ Text.RaisedTo s e.name
  message : ∀ s e, v.parse s = .error e → ∃ u, Text.RaisedTo s u ∧
    e.message = "validation failed: " ++ v.title ++ ": unknown value '" ++ u ++ "'"
  inJson : ∀ t a, Json.parse v.reader t = .ok a ↔
    WrittenAs t (.ofText (name a)) ∨ WrittenAs t (.ofMembers [(name a, .null)])
  strings : ∀ t l a, WrittenAs t (.text l) →
    (Json.parse v.reader t = .ok a ↔ WrittenAs t (.ofText (name a)))
  exactly : ∀ t s a, WrittenAs t (.ofText s) → (Json.parse v.reader t = .ok a ↔ s = name a)
  accepted : ∀ t s a, WrittenAs t (.ofText s) → Json.parse v.reader t = .ok a → v.parse s = .ok a
  raised : ∀ s, ∃ u, Text.RaisedTo s u ∧ ∀ t a, WrittenAs t (.ofText u) →
    (v.parse s = .ok a ↔ Json.parse v.reader t = .ok a)
  printed : ∀ a, (toValue a).compact = "\"" ++ name a ++ "\"" ∧
    Json.parse v.reader (toValue a).compact = .ok a ∧ v.parse (name a) = .ok a
  distinct : ∀ a b, name a = name b → a = b

theorem Spells.agrees (h : v.Spells name) {toValue : α → Value}
    (printed : ∀ a, toValue a = .text (name a)) : v.Agrees name toValue where
  parsed _ _ := parse_eq_ok h
  casings s a := (parse_eq_ok h).trans (Text.raised_capitals (h.capital a))
  plain s a parsed := ⟨length_of_parse h parsed, isAlpha_of_parse h parsed⟩
  nothingMore s a before after b part whole := parse_append h part whole
  refused _ _ := parse_eq_error h
  message s e refused := by
    obtain ⟨-, title, raised⟩ := (parse_eq_error h).1 refused
    exact ⟨e.name, raised, title ▸ rfl⟩
  inJson _ _ := parse_reader_iff h
  strings _ _ _ written := parse_reader_string h written
  exactly t s a written := parse_reader_text h written
  accepted t s a written read := by
    obtain rfl := (parse_reader_text h written).1 read
    exact parse_name h a
  raised s := by
    refine ⟨Text.upper s, Text.raisedTo_iff.2 rfl, fun t a written => ?_⟩
    rw [parse_reader_text h written, parse_eq_ok h, Text.raisedTo_iff]
  printed a := by
    rw [printed a]
    exact ⟨compact_name h a, (parse_reader_iff h).2 (.inl (Value.writtenAs_compact _)), parse_name h a⟩
  distinct a b same := h.apart a b (same ▸ List.infix_refl _)

end Vocabulary

/-! ### Kinds and levels -/

theorem Kind.upper_declared (k : Kind) : Text.upper k.declared = k.name := by
  cases k <;> decide +kernel

theorem Level.upper_declared (l : Level) : Text.upper l.declared = l.name := by
  cases l <;> decide +kernel

theorem Kind.spells : Kind.vocabulary.Spells Kind.name :=
  Vocabulary.spells_of (by intro k; cases k <;> simp) Kind.upper_declared
    (by intro k; cases k <;> simp [name, Text.Capital])
    (by intro k k'; cases k <;> cases k' <;> decide +kernel)

theorem Level.spells : Level.vocabulary.Spells Level.name :=
  Vocabulary.spells_of (by intro l; cases l <;> simp) Level.upper_declared
    (by intro l; cases l <;> simp [name, Text.Capital])
    (by intro l l'; cases l <;> cases l' <;> decide +kernel)

theorem Kind.toValue_eq (k : Kind) : k.toValue = .text k.name := congrArg Value.text k.upper_declared

theorem Level.toValue_eq (l : Level) : l.toValue = .text l.name := congrArg Value.text l.upper_declared

/-- A name by itself is taken in any case of its letters from `a` to `z`, and as nothing else. A JSON string
is taken only as the name is printed. -/
theorem names_agree : Kind.vocabulary.Agrees Kind.name Kind.toValue ∧
    Level.vocabulary.Agrees Level.name Level.toValue :=
  ⟨Kind.spells.agrees Kind.toValue_eq, Level.spells.agrees Level.toValue_eq⟩

/-- Letters of either case are one name, but not the letter `ı` (U+0131), whose capital is `I` outside of
ASCII. In JSON the case matters, and the error for a name that nothing has shows it in capitals. -/
theorem names_agree_mixed : Level.vocabulary.parse "wRiTe" = .ok .write ∧
    (∀ l, Level.vocabulary.parse "wr\u0131te" ≠ .ok l) ∧
    Json.parse Level.vocabulary.reader "\"WRITE\"" = .ok .write ∧
    (∀ l, Json.parse Level.vocabulary.reader "\"wRiTe\"" ≠ .ok l) ∧
    Kind.vocabulary.parse "cluster" = .error ⟨"ResourceType", "CLUSTER"⟩ := by
  obtain ⟨kinds, levels⟩ := names_agree
  have capitals : WrittenAs "\"WRITE\"" (.ofText "WRITE") := Value.writtenAs_compact (.text "WRITE")
  have mixed : WrittenAs "\"wRiTe\"" (.ofText "wRiTe") := Value.writtenAs_compact (.text "wRiTe")
  refine ⟨?_, ?_, ?_, ?_, ?_⟩
  · exact (levels.parsed _ _).2 (Text.raisedTo_iff.2 (by decide +kernel))
  · intro l parsed
    have letters := (levels.plain _ _ parsed).2 '\u0131' (by decide +kernel)
    cases letters
  · exact (levels.exactly _ _ _ capitals).2 rfl
  · intro l read
    have same := (levels.exactly _ _ _ mixed).1 read
    cases l <;> revert same <;> decide +kernel
  · refine (kinds.refused _ _).2 ⟨fun k raised => ?_, rfl, Text.raisedTo_iff.2 (by decide +kernel)⟩
    have same := Text.raisedTo_iff.1 raised
    cases k <;> revert same <;> decide +kernel

end Clearance
