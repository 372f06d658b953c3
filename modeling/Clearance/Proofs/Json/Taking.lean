import Mathlib.Data.List.Nodup
import Clearance.Proofs.Json.Strict
import Clearance.Proofs.Json.Unambiguous

/-!
What a reader takes, told by the value. A list, a map or a record that was taken had items or members
that the readers of its parts took, and a record had each of its own members once at most. This goes
from one part to the next, as no reader leaves anything of the value that it took.
-/
namespace Clearance.Json

variable {α σ : Type}

/-- The reader takes the value, in some way that it is written. -/
def Takes (read : Reader α) (x : Datum) : Prop :=
  ∃ s s₁ rest made, Gap s s₁ ∧ Written (.value x) s₁ rest ∧ read s = .ok made

theorem takes_map {β : Type} {item : Reader α} {x : Datum} {f : α → β}
    (h : Takes (fun s => (item s).map fun (a, rest) => (f a, rest)) x) : Takes item x := by
  obtain ⟨s, s₁, rest, made, gap, written, read⟩ := h
  cases taken : item s with
  | error fault =>
    simp only [taken] at read
    cases read
  | ok made => exact ⟨s, s₁, rest, made, gap, written, taken⟩

theorem takes_field {item : Reader α} {x : Datum} {name : String} {set : α → σ → σ}
    (h : Takes (Field.of name item set).read x) : Takes item x := takes_map h

/-- An item that was read is taken, and the loop goes on after it. -/
theorem elementsLoop_taken {item : Reader α} {x : Datum} (strict : Strict item) {fuel : Nat}
    {taken : List α} {s s' s₁ s₂ : List Char} (begun : Begun taken.isEmpty s s') (before : Gap s' s₁)
    (value : Written (.value x) s₁ s₂) {made : List α × List Char}
    (read : elementsLoop item fuel taken s = .ok made) :
    Takes item x ∧ ∃ fuel a, elementsLoop item fuel (a :: taken) s₂ = .ok made := by
  cases fuel with
  | zero => cases read
  | succ fuel =>
    simp only [elementsLoop, nextElement_begun begun before value, bind, Except.bind] at read
    cases here : item s₁ with
    | error fault =>
      rw [here] at read
      cases read
    | ok one =>
      rw [here] at read
      obtain rfl := strict.rest .none value here
      exact ⟨⟨s₁, s₁, _, one, .none, value, here⟩, fuel, one.1, read⟩

theorem takes_items {item : Reader α} {l : List Datum} (strict : Strict item)
    {s s' rest : List Char} {fuel : Nat} {taken : List α} {made : List α × List Char}
    (begun : Begun taken.isEmpty s s') (written : Written (.items l) s' rest)
    (read : elementsLoop item fuel taken s = .ok made) : ∀ y ∈ l, Takes item y := by
  induction l generalizing s s' fuel taken with
  | nil => exact nofun
  | cons x l ih =>
    cases written with
    | lastItem before value _ =>
      obtain ⟨here, -⟩ := elementsLoop_taken strict begun before value read
      exact List.forall_mem_singleton.2 here
    | item before value after more =>
      obtain ⟨here, fuel, a, read⟩ := elementsLoop_taken strict begun before value read
      have next : Begun (a :: taken).isEmpty _ _ := .next after
      exact List.forall_mem_cons.2 ⟨here, ih next more read⟩

theorem takes_elements {item : Reader α} {x : Datum} (h : Takes (elements item) x)
    (strict : Strict item) :
    ∃ l, x = .list l ∧ ∀ y ∈ l, Takes item y := by
  obtain ⟨s, s₁, rest, made, gap, written, read⟩ := h
  unfold elements at read
  rw [gap.skip written.atToken] at read
  split at read
  · obtain ⟨l, rfl⟩ := written.list_of_head
    refine ⟨l, rfl, ?_⟩
    cases written with
    | emptyList _ => exact nofun
    | list items =>
      have begun (s : List Char) : Begun ([] : List α).isEmpty s s := .first
      exact takes_items strict (begun _) items read
  · cases read

theorem reads_unit : Reads unit .null () := by
  intro s s₁ rest gap written
  unfold unit
  rw [gap.skip written.atToken]
  cases written with
  | null => rfl

theorem variantName_quoted {known : List (String × α)} {name : String} {a : α}
    (h : known.lookup name = some a) {s rest : List Char} (quoted : Quoted (marks name) s rest) :
    variantName known s = .ok (a, rest) := by
  simp only [variantName, string_quoted quoted, bind, Except.bind, h]

theorem reads_variant {known : List (String × α)} {name : String} {a : α}
    (h : known.lookup name = some a) : Reads (variant known) (.ofText name) a := by
  intro s s₁ rest gap written
  unfold variant
  rw [gap.skip written.atToken]
  cases written with
  | text quoted => exact variantName_quoted h quoted

theorem reads_variantObject {known : List (String × α)} {name : String} {a : α}
    (h : known.lookup name = some a) : Reads (variant known) (.ofMembers [(name, .null)]) a := by
  intro s s₁ rest gap written
  unfold variant
  rw [gap.skip written.atToken]
  cases written with
  | object members =>
    cases members with
    | lastMember before quoted between between' value after =>
      simp only [before.skip (atToken_cons rfl), variantName_quoted h quoted, colon_gap between,
        reads_unit between' value, after.skip (atToken_cons rfl), bind, Except.bind]
    | member _ _ _ _ _ _ more => cases more

/-- A variant is its name, or an object whose one member has the name, and null as its value. -/
theorem takes_variant {known : List (String × α)} {x : Datum} (whole : x.Whole)
    (h : Takes (variant known) x) : ∃ name, (known.lookup name).isSome = true ∧
      (x = .ofText name ∨ x = .ofMembers [(name, .null)]) := by
  obtain ⟨s, s₁, rest, made, gap, written, read⟩ := h
  obtain ⟨name, s₂, found, gap', written' | written'⟩ := written_of_variant read
  · obtain rfl := gap.unique written.atToken gap' written'.atToken
    exact ⟨name, found ▸ rfl, .inl (written.sole _ _ whole .text written')⟩
  · obtain rfl := gap.unique written.atToken gap' written'.atToken
    exact ⟨name, found ▸ rfl, .inr (written.sole _ _ whole (whole_variant name) written')⟩

theorem parse_variant_iff {known : List (String × α)} {t : String} {a : α} :
    parse (variant known) t = .ok a ↔ ∃ name, known.lookup name = some a ∧
      (WrittenAs t (.ofText name) ∨ WrittenAs t (.ofMembers [(name, .null)])) := by
  constructor
  · intro h
    obtain ⟨rest, read, after⟩ := parse_ok h
    obtain ⟨name, s₁, found, before, written⟩ := written_of_variant read
    exact ⟨name, found, written.imp (⟨s₁, rest, before, ·, after⟩) (⟨s₁, rest, before, ·, after⟩)⟩
  · rintro ⟨name, found, written | written⟩
    · exact parse_written (reads_variant found) written
    · exact parse_written (reads_variantObject found) written

/-- The values of the members of a name. -/
def valuesOf (name : String) (l : List (String × Datum)) : List Datum :=
  (l.filter (·.1 == name)).map Prod.snd

theorem mem_valuesOf {name : String} {l : List (String × Datum)} {x : Datum} :
    x ∈ valuesOf name l ↔ (name, x) ∈ l := by
  simp [valuesOf]

namespace Record
variable {r : Record σ}

theorem once_iff {l : List (String × Datum)} : ((l.map Prod.fst).filter r.knows).Nodup ↔
    ∀ name, r.knows name = true → (valuesOf name l).length ≤ 1 := by
  have number (name : String) : (valuesOf name l).length = (l.map Prod.fst).count name := by
    rw [valuesOf, List.length_map, ← List.countP_eq_length_filter, List.count_eq_countP,
      List.countP_map]
    rfl
  rw [List.nodup_iff_count_le_one]
  refine forall_congr' fun name => ?_
  rw [number]
  by_cases known : r.knows name = true
  · simp only [known, List.count_filter known, forall_const]
  · have none : ((l.map Prod.fst).filter r.knows).count name = 0 :=
      List.count_eq_zero.2 fun mem => known (List.mem_filter.1 mem).2
    simp [known, none]

/-- Members that a record was read from: none of its own twice, none missing that must be given, and each
taken by its field. -/
structure Fits (r : Record σ) (l : List (String × Datum)) : Prop where
  once : ((l.map Prod.fst).filter r.knows).Nodup
  given : ∀ f ∈ r.fields, f.required = true → f.name ∈ l.map Prod.fst
  takes : ∀ m ∈ l, ∀ f, r.field? m.1 = some f → Takes f.read m.2

/-- What is true of the members to come, once some were seen. -/
structure FitsAfter (r : Record σ) (seen : List String) (l : List (String × Datum)) : Prop where
  once : ((l.map Prod.fst).filter r.knows).Nodup
  unseen : ∀ m ∈ l, r.knows m.1 = true → m.1 ∉ seen
  given : ∀ f ∈ r.fields, f.required = true → f.name ∈ seen ∨ f.name ∈ l.map Prod.fst
  takes : ∀ m ∈ l, ∀ f, r.field? m.1 = some f → Takes f.read m.2

theorem FitsAfter.unknown {seen : List String} {k : String} {x : Datum} {l : List (String × Datum)}
    (h : r.FitsAfter seen l) (unknown : r.field? k = none) : r.FitsAfter seen ((k, x) :: l) where
  once := by simpa [knows, unknown] using h.once
  unseen := by
    refine List.forall_mem_cons.2 ⟨fun known => ?_, h.unseen⟩
    simp [knows, unknown] at known
  given f mem required := (h.given f mem required).imp_right (List.mem_cons_of_mem _)
  takes := by
    refine List.forall_mem_cons.2 ⟨fun f known => ?_, h.takes⟩
    cases unknown.symm.trans known

theorem FitsAfter.known {seen : List String} {k : String} {x : Datum} {l : List (String × Datum)}
    (h : r.FitsAfter (k :: seen) l) {f : Field σ} (known : r.field? k = some f) (unseen : k ∉ seen)
    (takes : Takes f.read x) : r.FitsAfter seen ((k, x) :: l) where
  once := by
    have fresh : k ∉ (l.map Prod.fst).filter r.knows := by
      intro later
      obtain ⟨named, knows⟩ := List.mem_filter.1 later
      obtain ⟨m, mem, rfl⟩ := List.mem_map.1 named
      exact h.unseen m mem knows List.mem_cons_self
    have own : r.knows k = true := by simp [knows, known]
    rw [List.map_cons, List.filter_cons_of_pos own]
    exact List.nodup_cons.2 ⟨fresh, h.once⟩
  unseen := List.forall_mem_cons.2 ⟨fun _ => unseen, fun m mem knows seen =>
    h.unseen m mem knows (List.mem_cons_of_mem _ seen)⟩
  given g mem required := by
    rcases h.given g mem required with here | later
    · rcases List.mem_cons.1 here with rfl | before
      · exact .inr List.mem_cons_self
      · exact .inl before
    · exact .inr (List.mem_cons_of_mem _ later)
  takes := List.forall_mem_cons.2 ⟨fun g found => by
    obtain rfl := Option.some.inj (known.symm.trans found)
    exact takes, h.takes⟩

theorem fitsAfter_nil {seen : List String} {v : σ} {fuel : Nat} {first : Bool} {s rest : List Char}
    (after : Gap s ('\x7d' :: rest)) {made : σ × List Char}
    (read : r.membersLoop fuel first seen v s = .ok made) : r.FitsAfter seen [] := by
  cases fuel with
  | zero => cases read
  | succ fuel =>
    rw [membersLoop] at read
    simp only [nextName_closed after, bind, Except.bind] at read
    split at read
    · cases read
    · rename_i none
      refine ⟨.nil, List.forall_mem_nil _, fun f mem required => ?_, List.forall_mem_nil _⟩
      have seen := List.find?_eq_none.1 none f mem
      simp only [required, Bool.true_and, Bool.not_eq_true', Bool.not_eq_false,
        List.contains_eq_mem, decide_eq_true_eq] at seen
      exact .inl seen

/-- What a member tells that was read, and how the loop goes on after it. -/
theorem membersLoop_taken {k : String} {x : Datum}
    (strict : ∀ f ∈ r.fields, Strict f.read) {fuel : Nat} {first : Bool}
    {seen : List String} {v : σ} {s s' s₁ s₂ s₃ s₄ s₅ : List Char} (begun : Begun first s s')
    (before : Gap s' ('"' :: s₁)) (name : Quoted (marks k) s₁ s₂) (between : Gap s₂ (':' :: s₃))
    (between' : Gap s₃ s₄) (value : Written (.value x) s₄ s₅) {made : σ × List Char}
    (read : r.membersLoop fuel first seen v s = .ok made) :
    (r.field? k = none ∧ ∃ fuel, r.membersLoop fuel false seen v s₅ = .ok made) ∨
      ∃ f, r.field? k = some f ∧ k ∉ seen ∧ Takes f.read x ∧
        ∃ fuel v, r.membersLoop fuel false (k :: seen) v s₅ = .ok made := by
  cases fuel with
  | zero => cases read
  | succ fuel =>
    rw [membersLoop] at read
    simp only [nextName_begun begun before name, bind, Except.bind, colon_gap between] at read
    split at read
    · rename_i unknown
      rw [skip_written between' value] at read
      exact .inl ⟨unknown, fuel, read⟩
    · rename_i f known
      split at read
      · cases read
      · rename_i unseen
        cases here : f.read s₃ with
        | error fault =>
          rw [here] at read
          cases read
        | ok one =>
          rw [here] at read
          obtain rfl := (strict f (of_field? known).1).rest between' value here
          refine .inr ⟨f, known, by simpa using unseen, ?_, fuel, one.1 v, read⟩
          exact ⟨s₃, s₄, _, one, between', value, here⟩

theorem fitsAfter_members {l : List (String × Datum)}
    (strict : ∀ f ∈ r.fields, Strict f.read) {fuel : Nat} {first : Bool}
    {seen : List String} {v : σ} {s s' rest : List Char} (begun : Begun first s s')
    (written : Written (.members (l.map fun m => (marks m.1, m.2))) s' rest) {made : σ × List Char}
    (read : r.membersLoop fuel first seen v s = .ok made) : r.FitsAfter seen l := by
  induction l generalizing s s' fuel seen first v with
  | nil => cases written
  | cons m l ih =>
    obtain ⟨k, x⟩ := m
    generalize written_as : (List.map _ _) = written_members at written
    cases written with
    | lastMember before name between between' value after =>
      obtain ⟨⟨rfl, rfl⟩, last⟩ := by simpa using written_as
      obtain rfl : l = [] := by simpa using last
      rcases membersLoop_taken strict begun before name between between' value read with
        ⟨unknown, fuel, read⟩ | ⟨f, known, unseen, takes, fuel, v, read⟩
      · exact (fitsAfter_nil after read).unknown unknown
      · exact (fitsAfter_nil after read).known known unseen takes
    | member before name between between' value after more =>
      obtain ⟨⟨rfl, rfl⟩, rfl⟩ := by simpa using written_as
      rcases membersLoop_taken strict begun before name between between' value read with
        ⟨unknown, fuel, read⟩ | ⟨f, known, unseen, takes, fuel, v, read⟩
      · exact (ih (.next after) more read).unknown unknown
      · exact (ih (.next after) more read).known known unseen takes

theorem takes_record {l : List (String × Datum)} (h : Takes r.reader (.ofMembers l))
    (strict : ∀ f ∈ r.fields, Strict f.read) : r.Fits l := by
  obtain ⟨s, s₁, rest, made, gap, written, read⟩ := h
  unfold reader at read
  rw [gap.skip written.atToken] at read
  have fits : r.FitsAfter [] l := by
    generalize written_as : Datum.ofMembers l = x at written
    cases written with
    | emptyObject inside =>
      obtain rfl : l = [] := by simpa [Datum.ofMembers] using written_as
      exact fitsAfter_nil inside read
    | object members =>
      obtain rfl := Datum.object.inj written_as
      exact fitsAfter_members strict .first members read
    | _ => cases written_as
  refine ⟨fits.once, fun f mem required => ?_, fits.takes⟩
  exact (fits.given f mem required).resolve_left List.not_mem_nil

/-- What is read as a record is an object or a list. -/
theorem object_or_list_of_takes {x : Datum} (h : Takes r.reader x) :
    (∃ l, x = .object l) ∨ ∃ l, x = .list l := by
  obtain ⟨s, s₁, rest, made, gap, written, read⟩ := h
  unfold reader at read
  rw [gap.skip written.atToken] at read
  split at read
  · exact .inl written.object_of_head
  · exact .inr written.list_of_head
  · cases read

end Record

theorem takes_of_parse {read : Reader α} {x : Datum} {a : α} {t : String} (written : WrittenAs t x)
    (parsed : parse read t = .ok a) : Takes read x := by
  obtain ⟨s₁, s₂, before, value, -⟩ := written
  obtain ⟨rest, taken, -⟩ := parse_ok parsed
  exact ⟨t.toList, s₁, s₂, (a, rest), before, value, taken⟩

end Clearance.Json
