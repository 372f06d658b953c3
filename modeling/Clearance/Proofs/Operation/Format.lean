import Clearance.Proofs.Json.Forms
import Clearance.Proofs.Json.Positions
import Clearance.Proofs.Json.Printing
import Clearance.Proofs.Operation.Document

/-!
The format of operation documents. A text is a document exactly if it is JSON and its value is that of a
document with a type that is not blank; the two errors tell apart what is wrong.
-/
namespace Clearance.Document
open Json

/-- A document as an object of its members, or as a list of them in the order of their names, the last
ones left out that the document does not have. -/
inductive WrittenIn (d : Document) : Datum → Prop where
  | object {l : List (String × Datum)} : d.RenderedBy l → d.WrittenIn (.ofMembers l)
  | list {l : List Datum} : l.length ≤ memberNames.length → d.RenderedBy (memberNames.zip l) →
    d.WrittenIn (.list l)

theorem ordered : record.Ordered where
  distinct := by decide
  requiredFirst := by simp [record, Field.of]

theorem exact_name : Exact (nullable (text "a string")) (.ofOption .ofText) :=
  exact_nullable (exact_text "a string") fun _ h => nomatch h

theorem exact_names : Exact names datumOfNames :=
  exact_nullable (exact_elements exact_name) fun _ h => nomatch h

theorem exact_restriction : Exact (nullable boolean) (.ofOption .boolean) :=
  exact_nullable exact_boolean fun _ h => nomatch h

variable {d : Document} {l : List (String × Datum)} {x : Datum}

theorem strict_fields : ∀ f ∈ record.fields, Strict f.read := by
  simp only [record, List.forall_mem_cons]
  exact ⟨strict_field (strict_text _) "type" fun t (v : Document) => { v with type := t },
    strict_field exact_name.strict _ _, strict_field exact_names.strict _ _,
    strict_field exact_names.strict _ _, strict_field exact_restriction.strict _ _,
    List.forall_mem_nil _⟩

/-- Members that can be read are those of a document. -/
theorem exists_rendered (fits : record.Fits l) (whole : ∀ m ∈ l, m.2.Whole) :
    ∃ d : Document, d.RenderedBy l := by
  obtain ⟨type, types⟩ := fits.exists_option whole (exact_text "a string") "type"
    rfl (fun t v => { v with type := t }) rfl
  obtain ⟨account, accounts⟩ := fits.exists_option whole exact_name "account"
    rfl _ rfl
  obtain ⟨applications, lists⟩ :=
    fits.exists_option whole exact_names "applications" rfl _ rfl
  obtain ⟨owners, lists'⟩ :=
    fits.exists_option whole exact_names "resourceApplications" rfl _ rfl
  obtain ⟨restriction, flags⟩ := fits.exists_option whole exact_restriction
    "requiresApplicationRestriction" rfl _ rfl
  obtain ⟨t, rfl⟩ : ∃ t, type = some t := by
    have given := fits.given _ List.mem_cons_self rfl
    obtain ⟨⟨_, x⟩, mem, rfl⟩ := List.mem_map.1 given
    obtain ⟨t, some, -⟩ := (types x).1 mem
    exact ⟨t, some⟩
  refine ⟨⟨t, account, applications, owners, restriction.join⟩, ?_, ?_, accounts, lists, lists', ?_, ?_⟩
  · have once := fits.once
    rwa [knows_eq] at once
  · simpa using types
  · intro x mem
    obtain ⟨b, rfl, rfl⟩ := (flags x).1 mem
    rfl
  · intro set
    obtain ⟨b, rfl⟩ : ∃ b, restriction = some b := by
      cases restriction with
      | none => cases set
      | some b => exact ⟨b, rfl⟩
    exact List.mem_map_of_mem ((flags _).2 ⟨b, rfl, rfl⟩)

theorem WrittenIn.reads (h : d.WrittenIn x) : Reads record.reader x d := by
  cases h with
  | object rendered =>
    have read := Record.reads_of_fills rendered.fills
    rwa [rendered.fill] at read
  | list short rendered =>
    have read := Record.reads_list ordered short rendered.fills
    have filled : record.fill d.take (record.names.zip _) record.start = d := rendered.fill
    rwa [filled] at read

theorem exists_written (taken : Takes record.reader x) (whole : x.Whole) :
    ∃ d : Document, d.WrittenIn x := by
  rcases Record.object_or_list_of_takes taken with ⟨l, rfl⟩ | ⟨l, rfl⟩
  · obtain ⟨l, object, wholes⟩ := whole.members
    rw [object] at taken ⊢
    have fits := Record.takes_record taken strict_fields
    obtain ⟨d, rendered⟩ := exists_rendered fits wholes
    exact ⟨d, .object rendered⟩
  · have wholes : ∀ m ∈ memberNames.zip l, m.2.Whole := fun m mem =>
      whole.items m.2 (List.of_mem_zip mem).2
    obtain ⟨short, fits⟩ := Record.takes_list ordered taken strict_fields
    obtain ⟨d, rendered⟩ := exists_rendered fits wholes
    exact ⟨d, .list short rendered⟩

variable {t : String}

theorem parse_of_error {e : Json.Error} (h : Json.parse record.reader t = .error e) :
    parse t = .error (.malformed e) := by
  unfold parse
  rw [h]
  rfl

theorem parse_of_blank (h : Json.parse record.reader t = .ok d)
    (blank : ∀ c ∈ d.type.toList, Text.isBlank c = true) : parse t = .error .blankType := by
  unfold parse
  rw [h]
  exact if_pos (List.all_eq_true.2 blank)

theorem parse_of_visible (h : Json.parse record.reader t = .ok d)
    (visible : ∃ c ∈ d.type.toList, Text.isBlank c = false) : parse t = .ok d := by
  obtain ⟨c, mem, visible⟩ := visible
  unfold parse
  rw [h]
  refine if_neg fun blank => ?_
  cases visible.symm.trans (List.all_eq_true.1 blank c mem)

theorem blank_or_visible (t : String) :
    (∀ c ∈ t.toList, Text.isBlank c = true) ∨ ∃ c ∈ t.toList, Text.isBlank c = false := by
  by_cases blank : ∀ c ∈ t.toList, Text.isBlank c = true
  · exact .inl blank
  · simp only [not_forall, Bool.not_eq_true] at blank
    obtain ⟨c, mem, visible⟩ := blank
    exact .inr ⟨c, mem, visible⟩

theorem parse_ok_iff : parse t = .ok d ↔
    Json.parse record.reader t = .ok d ∧ ∃ c ∈ d.type.toList, Text.isBlank c = false := by
  constructor
  · intro parsed
    cases read : Json.parse record.reader t with
    | error e => cases (parse_of_error read).symm.trans parsed
    | ok d' =>
      rcases blank_or_visible d'.type with blank | visible
      · cases (parse_of_blank read blank).symm.trans parsed
      · obtain rfl := Except.ok.inj ((parse_of_visible read visible).symm.trans parsed)
        exact ⟨rfl, visible⟩
  · exact fun ⟨read, visible⟩ => parse_of_visible read visible

theorem parse_blank_iff : parse t = .error .blankType ↔
    ∃ d, Json.parse record.reader t = .ok d ∧ ∀ c ∈ d.type.toList, Text.isBlank c = true := by
  constructor
  · intro parsed
    cases read : Json.parse record.reader t with
    | error e => cases (parse_of_error read).symm.trans parsed
    | ok d =>
      rcases blank_or_visible d.type with blank | visible
      · exact ⟨d, rfl, blank⟩
      · cases (parse_of_visible read visible).symm.trans parsed
  · exact fun ⟨d, read, blank⟩ => parse_of_blank read blank

theorem parse_malformed_iff :
    (∃ e, parse t = .error (.malformed e)) ↔ ¬ ∃ d, Json.parse record.reader t = .ok d := by
  constructor
  · rintro ⟨e, parsed⟩ ⟨d, read⟩
    rcases blank_or_visible d.type with blank | visible
    · cases (parse_of_blank read blank).symm.trans parsed
    · cases (parse_of_visible read visible).symm.trans parsed
  · intro none
    cases read : Json.parse record.reader t with
    | error e => exact ⟨e, parse_of_error read⟩
    | ok d => exact absurd ⟨d, read⟩ none

/-- What the reader makes of a text is the document that the value of the text is written as. -/
theorem read_iff_written (whole : x.Whole) (written : WrittenAs t x) :
    Json.parse record.reader t = .ok d ↔ d.WrittenIn x := by
  constructor
  · intro read
    obtain ⟨d', h⟩ := exists_written (takes_of_parse written read) whole
    obtain rfl := Except.ok.inj (read.symm.trans (parse_written h.reads written))
    exact h
  · exact fun h => parse_written h.reads written

/-- A text that is no JSON is malformed, and so is one whose value is not written as a document is. Any
other text is the document that it is written as, or its type is blank. -/
theorem parse_format (t : String) :
    ((¬ ∃ x, WrittenAs t x) → ∃ e, parse t = .error (.malformed e)) ∧
      ∀ x : Datum, x.Whole → WrittenAs t x →
        (∀ d, parse t = .ok d ↔ d.WrittenIn x ∧ ∃ c ∈ d.type.toList, Text.isBlank c = false) ∧
        (parse t = .error .blankType ↔
          ∃ d : Document, d.WrittenIn x ∧ ∀ c ∈ d.type.toList, Text.isBlank c = true) ∧
        ((∃ e, parse t = .error (.malformed e)) ↔ ¬ ∃ d : Document, d.WrittenIn x) := by
  constructor
  · intro none
    refine parse_malformed_iff.2 fun ⟨d, read⟩ => none ?_
    exact written_of_parse (Record.strict_reader strict_fields) read
  · intro x whole written
    have read (d : Document) := read_iff_written (d := d) whole written
    refine ⟨fun d => ?_, ?_, ?_⟩
    · rw [parse_ok_iff, read]
    · simp only [parse_blank_iff, read]
    · simp only [parse_malformed_iff, read]

/-- No text at all, a list with an account that is null, one with a blank type, and one with no type. -/
theorem parse_format_listed :
    (∃ e, parse "" = .error (.malformed e)) ∧
      parse "[\"a\",null]" = .ok { type := "a", account := some none } ∧
      parse "[\" \"]" = .error .blankType ∧ ∃ e, parse "[]" = .error (.malformed e) := by
  refine ⟨(parse_format "").1 ?_, ?_, ?_, ?_⟩
  · rintro ⟨x, s₁, s₂, before, value, -⟩
    obtain ⟨c, s, rfl, -⟩ := value.head
    cases before
  · have rendered : RenderedBy { type := "a", account := some none }
        (memberNames.zip [.ofText "a", .null]) := by
      constructor
      · decide
      all_goals simp [memberNames, Datum.ofOption]
    have written : WrittenAs "[\"a\",null]" (.list [.ofText "a", .null]) :=
      Value.writtenAs_compact (.list [.text "a", .null])
    have whole : (Datum.list [.ofText "a", .null]).Whole :=
      .list (List.forall_mem_cons.2 ⟨.text, List.forall_mem_singleton.2 .null⟩)
    exact (((parse_format _).2 _ whole written).1 _).2
      ⟨.list (by decide) rendered, 'a', by decide, by decide⟩
  · have rendered : RenderedBy { type := " " } (memberNames.zip [.ofText " "]) := by
      constructor
      · decide
      all_goals simp [memberNames]
    have written : WrittenAs "[\" \"]" (.list [.ofText " "]) :=
      Value.writtenAs_compact (.list [.text " "])
    have whole : (Datum.list [.ofText " "]).Whole := .list (List.forall_mem_singleton.2 .text)
    have blank : ∀ c ∈ " ".toList, Text.isBlank c = true := by
      intro c mem
      obtain rfl : c = ' ' := by simpa using mem
      rfl
    exact ((parse_format _).2 _ whole written).2.1.2 ⟨_, .list (by decide) rendered, blank⟩
  · have written : WrittenAs "[]" (.list []) := Value.writtenAs_compact (.list [])
    have untyped (d : Document) : ¬ d.RenderedBy [] := by
      intro rendered
      cases rendered.type_mem
    have whole : (Datum.list []).Whole := .list (List.forall_mem_nil _)
    refine ((parse_format _).2 _ whole written).2.2.2 ?_
    rintro ⟨d, h⟩
    generalize list : Datum.list [] = x at h
    cases h with
    | object _ => cases list
    | list _ rendered =>
      cases list
      exact untyped d rendered

end Clearance.Document
