import Clearance.Proofs.Json.Decoding
import Clearance.Proofs.Json.Spelling

/-!
No reader takes what is not JSON. Where a reader succeeds, a value was written, also where the value
was skipped. Readers that go through a list or an object, by recursion or with a stack of the brackets
that are open, have one argument in common: what is inside of a bracket is some part of it, and what
remains of it after that part.
-/
namespace Clearance.Json

variable {α β σ : Type}

/-- A value is written at the start of the first text, and the second is what comes after it. -/
def Spans (s rest : List Char) : Prop := ∃ s₁ x, Gap s s₁ ∧ Written (.value x) s₁ rest

theorem Spans.gap {s s' rest : List Char} (gap : Gap s s') (h : Spans s' rest) : Spans s rest := by
  obtain ⟨s₁, x, gap', written⟩ := h
  exact ⟨s₁, x, gap.trans gap', written⟩

theorem Written.spans {x : Datum} {s s' rest : List Char} (gap : Gap s s')
    (h : Written (.value x) s' rest) : Spans s rest := ⟨s', x, gap, h⟩

namespace Bracket

def opening : Bracket → Char
  | .list => '['
  | .object => '\x7b'

def closing : Bracket → Char
  | .list => ']'
  | .object => '\x7d'

/-- What can be written inside of a bracket. -/
inductive Holds : Bracket → Piece → Prop where
  | items {l : List Datum} : Holds .list (.items l)
  | members {l : List (List Mark × Datum)} : Holds .object (.members l)

/-- The value of a part inside of a bracket starts at the second text: in an object after its name. -/
inductive Introduces : Bracket → List Char → List Char → Prop where
  | item {s rest : List Char} : Gap s rest → Introduces .list s rest
  | member {k : List Mark} {s s₁ s₂ rest : List Char} : Gap s ('"' :: s₁) → Quoted k s₁ s₂ →
    Gap s₂ (':' :: rest) → Introduces .object s rest

/-- What remains of the inside of a bracket, from its start or after a part of it, and the bracket that
closes it. -/
inductive Remains (b : Bracket) (first : Bool) (s rest : List Char) : Prop where
  | closed : Gap s (b.closing :: rest) → Remains b first s rest
  | more {p : Piece} {s' : List Char} : Begun first s s' → b.Holds p → Written p s' rest →
    Remains b first s rest

variable {b : Bracket} {first : Bool} {s s' s₁ s₂ rest : List Char}

theorem Remains.after (begun : Begun first s s') (start : b.Introduces s' s₁) (value : Spans s₁ s₂)
    (h : b.Remains false s₂ rest) : b.Remains first s rest := by
  obtain ⟨s₃, x, gap, written⟩ := value
  cases h with
  | closed close =>
    cases start with
    | item before => exact .more begun .items (.lastItem (before.trans gap) written close)
    | member before name between =>
      exact .more begun .members (.lastMember before name between gap written close)
  | more next holds more =>
    cases next with
    | next comma =>
      cases start with
      | item before =>
        cases holds with
        | items => exact .more begun .items (.item (before.trans gap) written comma more)
      | member before name between =>
        cases holds with
        | members => exact .more begun .members (.member before name between gap written comma more)

theorem Remains.spans (h : b.Remains true s' rest) (gap : Gap s (b.opening :: s')) : Spans s rest := by
  cases h with
  | closed close =>
    cases b with
    | list => exact (Written.emptyList close).spans gap
    | object => exact (Written.emptyObject close).spans gap
  | more begun holds written =>
    cases begun with
    | first =>
      cases holds with
      | items => exact (Written.list written).spans gap
      | members => exact (Written.object written).spans gap

theorem introduces_of_skipName (gap : Gap s s') (h : skipName s' = .ok rest) :
    object.Introduces s rest := by
  obtain ⟨k, s₁, s₂, before, name, between⟩ := member_of_skipName h
  exact .member (gap.trans before) name between

end Bracket

/-! ### The skipper -/

/-- What remains of all brackets that are open, from the inner ones to the outer ones. -/
inductive Finishes : List Bracket → List Char → List Char → Prop where
  | whole {rest : List Char} : Finishes [] rest rest
  | leave {b : Bracket} {outer : List Bracket} {s s' rest : List Char} :
    b.Remains false s s' → Finishes outer s' rest → Finishes (b :: outer) s rest

/-- A value, and after it what remains of the brackets. -/
def Completes (brackets : List Bracket) (s rest : List Char) : Prop :=
  ∃ s', Spans s s' ∧ Finishes brackets s' rest

theorem Completes.remains {b : Bracket} {outer : List Bracket} {first : Bool} {s s' s₁ rest : List Char}
    (begun : Begun first s s') (start : b.Introduces s' s₁) (h : Completes (b :: outer) s₁ rest) :
    ∃ s₂, b.Remains first s s₂ ∧ Finishes outer s₂ rest := by
  obtain ⟨s₃, value, finishes⟩ := h
  cases finishes with
  | leave remains finishes => exact ⟨_, .after begun start value remains, finishes⟩

/-- What is to come after a step of the skipper. -/
def Skipped.Leads : Skipped → List Char → Prop
  | whole s, rest => s = rest
  | inside brackets s, rest => Completes brackets s rest

theorem finishes_of_leave {brackets : List Bracket} {s rest : List Char} {skipped : Skipped}
    (h : leave brackets s = .ok skipped) (leads : skipped.Leads rest) : Finishes brackets s rest := by
  induction brackets generalizing s with
  | nil =>
    cases h
    cases leads
    exact .whole
  | cons b outer ih =>
    cases b with
    | list =>
      unfold leave at h
      split at h
      · rename_i found
        cases h
        obtain ⟨_, remains, finishes⟩ := leads.remains (.next (gap_of_skipGap found)) (.item .none)
        exact .leave remains finishes
      · rename_i found
        exact .leave (.closed (gap_of_skipGap found)) (ih h)
      · cases h
      · cases h
    | object =>
      unfold leave at h
      split at h
      · rename_i found
        obtain ⟨_, name, h⟩ := bind_ok h
        cases h
        obtain ⟨_, remains, finishes⟩ :=
          leads.remains (.next (gap_of_skipGap found)) (Bracket.introduces_of_skipName .none name)
        exact .leave remains finishes
      · rename_i found
        exact .leave (.closed (gap_of_skipGap found)) (ih h)
      · cases h
      · cases h

theorem completes_of_enter {outer : List Bracket} {s rest : List Char} {skipped : Skipped}
    (h : enter outer s = .ok skipped) (leads : skipped.Leads rest) : Completes outer s rest := by
  have scalar {s₁ s₂ : List Char} {x : Datum} (found : skipGap s = s₁) (value : Written (.value x) s₁ s₂)
      (left : leave outer s₂ = .ok skipped) : Completes outer s rest :=
    ⟨s₂, value.spans (gap_of_skipGap found), finishes_of_leave left leads⟩
  have empty {b : Bracket} {s₁ s₂ : List Char} (found : skipGap s = b.opening :: s₁)
      (closed : skipGap s₁ = b.closing :: s₂) (left : leave outer s₂ = .ok skipped) :
      Completes outer s rest :=
    ⟨s₂, (Bracket.Remains.closed (gap_of_skipGap closed)).spans (gap_of_skipGap found),
      finishes_of_leave left leads⟩
  have inner {b : Bracket} {s₁ s₂ : List Char} (found : skipGap s = b.opening :: s₁)
      (start : b.Introduces s₁ s₂) (inside : Completes (b :: outer) s₂ rest) :
      Completes outer s rest := by
    obtain ⟨s₃, remains, finishes⟩ := inside.remains .first start
    exact ⟨s₃, remains.spans (gap_of_skipGap found), finishes⟩
  unfold enter at h
  split at h
  · cases h
  · rename_i found
    obtain ⟨_, word, h⟩ := bind_ok h
    obtain rfl := eq_of_word? word
    exact scalar found .null h
  · rename_i found
    obtain ⟨_, word, h⟩ := bind_ok h
    obtain rfl := eq_of_word? word
    exact scalar found .isTrue h
  · rename_i found
    obtain ⟨_, word, h⟩ := bind_ok h
    obtain rfl := eq_of_word? word
    exact scalar found .isFalse h
  · rename_i found
    obtain ⟨_, skipped, h⟩ := bind_ok h
    obtain ⟨l, quoted⟩ := quoted_of_skipString skipped
    exact scalar found (.text quoted) h
  · rename_i found
    obtain ⟨_, skipped, h⟩ := bind_ok h
    exact scalar found (.number (.negative (unsigned_of_skipNumber skipped))) h
  · rename_i found
    split at h
    · rename_i closed
      exact empty (b := .list) found closed h
    · cases h
    · cases h
      exact inner (b := .list) found (.item (gap_skipGap _)) leads
  · rename_i found
    split at h
    · rename_i closed
      exact empty (b := .object) found closed h
    · obtain ⟨_, name, h⟩ := bind_ok h
      cases h
      exact inner (b := .object) found (Bracket.introduces_of_skipName (gap_skipGap _) name) leads
  · rename_i found
    split at h
    · obtain ⟨_, skipped, h⟩ := bind_ok h
      exact scalar found (.number (.positive (unsigned_of_skipNumber skipped))) h
    · cases h

theorem completes_of_skipLoop {fuel : Nat} {brackets : List Bracket} {s rest : List Char}
    (h : skipLoop fuel brackets s = .ok rest) : Completes brackets s rest := by
  induction fuel generalizing brackets s with
  | zero => cases h
  | succ fuel ih =>
    obtain ⟨skipped, entered, h⟩ := bind_ok h
    apply completes_of_enter entered
    cases skipped with
    | whole rest => exact Except.ok.inj h
    | inside brackets s => exact ih h

theorem spans_of_skip {s rest : List Char} (h : skip s = .ok rest) : Spans s rest := by
  obtain ⟨s', value, finishes⟩ := completes_of_skipLoop h
  cases finishes
  exact value

/-! ### Readers -/

/-- Where the reader succeeds, it has gone past a value. -/
def Strict (read : Reader α) : Prop := ∀ s made, read s = .ok made → Spans s made.2

/-- However the value is written that a reader was given, what is left is what comes after it. -/
theorem Strict.rest {read : Reader α} (h : Strict read) {x : Datum} {s s₁ rest : List Char}
    (gap : Gap s s₁) (written : Written (.value x) s₁ rest) {made : α × List Char}
    (taken : read s = .ok made) : made.2 = rest := by
  obtain ⟨s₂, x', gap', written'⟩ := h s made taken
  have skipped := skip_written gap written
  rw [skip_written gap' written'] at skipped
  exact Except.ok.inj skipped

theorem strict_map {item : Reader α} (h : Strict item) (f : α → β) :
    Strict fun s => (item s).map fun (a, rest) => (f a, rest) := by
  intro s made read
  obtain ⟨one, here, read⟩ := map_ok read
  cases read
  exact h s one here

theorem strict_field {item : Reader α} (h : Strict item) (name : String) (set : α → σ → σ) :
    Strict (Field.of name item set).read := strict_map h set

theorem strict_text (expected : String) : Strict (text expected) := by
  intro s made read
  unfold text at read
  split at read
  · rename_i found
    exact (Written.text (quoted_of_string read)).spans (gap_of_skipGap found)
  · cases read

theorem strict_boolean : Strict boolean := by
  intro s made read
  unfold boolean at read
  split at read
  · rename_i found
    obtain ⟨_, word, read⟩ := map_ok read
    cases read
    obtain rfl := eq_of_word? word
    exact Written.isTrue.spans (gap_of_skipGap found)
  · rename_i found
    obtain ⟨_, word, read⟩ := map_ok read
    cases read
    obtain rfl := eq_of_word? word
    exact Written.isFalse.spans (gap_of_skipGap found)
  · cases read

theorem strict_nullable {item : Reader α} (h : Strict item) : Strict (nullable item) := by
  intro s made read
  unfold nullable at read
  split at read
  · rename_i found
    obtain ⟨_, word, read⟩ := map_ok read
    cases read
    obtain rfl := eq_of_word? word
    exact Written.null.spans (gap_of_skipGap found)
  · exact (strict_map h some (skipGap s) made read).gap (gap_skipGap s)

theorem gap_of_closedElement {first : Bool} {s rest : List Char}
    (h : nextElement first s = .ok (.closed rest)) : Gap s (']' :: rest) := by
  unfold nextElement at h
  split at h
  · cases h
  · rename_i found
    cases h
    exact gap_of_skipGap found
  · split at h
    · cases h
    · split at h <;> cases h
  · split at h <;> cases h

theorem begun_of_nextElement {first : Bool} {s rest : List Char}
    (h : nextElement first s = .ok (.item () rest)) : ∃ s', Begun first s s' ∧ Gap s' rest := by
  cases first with
  | true =>
    refine ⟨s, .first, gap_of_skipGap ?_⟩
    unfold nextElement at h
    split at h
    · cases h
    · cases h
    · rename_i found
      cases h
      exact found
    · cases h
      rfl
  | false =>
    unfold nextElement at h
    split at h
    · cases h
    · cases h
    · rename_i found
      simp only [Bool.false_eq_true, if_false] at h
      split at h
      · cases h
      · cases h
      · cases h
        exact ⟨_, .next (gap_of_skipGap found), gap_skipGap _⟩
    · cases h

theorem gap_of_closedName {first : Bool} {s rest : List Char}
    (h : nextName first s = .ok (.closed rest)) : Gap s ('\x7d' :: rest) := by
  unfold nextName at h
  split at h
  · cases h
  · rename_i found
    cases h
    exact gap_of_skipGap found
  · split at h
    · obtain ⟨_, -, h⟩ := map_ok h
      cases h
    · cases h
  · split at h
    · cases h
    · split at h
      · obtain ⟨_, -, h⟩ := map_ok h
        cases h
      · cases h
      · cases h
      · cases h
  · split at h <;> cases h

theorem begun_of_nextName {first : Bool} {k : String} {s rest : List Char}
    (h : nextName first s = .ok (.item k rest)) :
    ∃ s' s₁, Begun first s s' ∧ Gap s' ('"' :: s₁) ∧ Quoted (marks k) s₁ rest := by
  unfold nextName at h
  split at h
  · cases h
  · cases h
  · rename_i found
    split at h
    · rename_i is_first
      obtain ⟨one, name, h⟩ := map_ok h
      cases h
      subst is_first
      exact ⟨s, _, .first, gap_of_skipGap found, quoted_of_string name⟩
    · cases h
  · rename_i comma
    split at h
    · cases h
    · rename_i later
      split at h
      · rename_i found
        obtain ⟨one, name, h⟩ := map_ok h
        cases h
        obtain rfl := Bool.eq_false_iff.2 later
        exact ⟨_, _, .next (gap_of_skipGap comma), gap_of_skipGap found, quoted_of_string name⟩
      · cases h
      · cases h
      · cases h
  · split at h <;> cases h

theorem remains_of_elementsLoop {item : Reader α} (strict : Strict item) {fuel : Nat} {taken : List α}
    {s : List Char} {made : List α × List Char} (h : elementsLoop item fuel taken s = .ok made) :
    Bracket.list.Remains taken.isEmpty s made.2 := by
  induction fuel generalizing taken s with
  | zero => cases h
  | succ fuel ih =>
    obtain ⟨next, found, h⟩ := bind_ok h
    cases next with
    | closed rest =>
      cases h
      exact .closed (gap_of_closedElement found)
    | item u rest =>
      obtain ⟨⟨a, rest'⟩, read, h⟩ := bind_ok h
      obtain ⟨s', begun, gap⟩ := begun_of_nextElement found
      exact .after begun (.item gap) (strict rest _ read) (ih h)

theorem strict_elements {item : Reader α} (h : Strict item) : Strict (elements item) := by
  intro s made read
  unfold elements at read
  split at read
  · rename_i found
    have remains : Bracket.list.Remains true _ made.2 := remains_of_elementsLoop h read
    exact remains.spans (gap_of_skipGap found)
  · cases read

theorem remains_of_entriesLoop {item : Reader α} (strict : Strict item) {fuel : Nat}
    {taken : List (String × α)} {s : List Char} {made : List (String × α) × List Char}
    (h : entriesLoop item fuel taken s = .ok made) : Bracket.object.Remains taken.isEmpty s made.2 := by
  induction fuel generalizing taken s with
  | zero => cases h
  | succ fuel ih =>
    obtain ⟨next, found, h⟩ := bind_ok h
    cases next with
    | closed rest =>
      cases h
      exact .closed (gap_of_closedName found)
    | item k rest =>
      obtain ⟨s', s₁, begun, before, name⟩ := begun_of_nextName found
      obtain ⟨s₂, between, h⟩ := bind_ok h
      obtain ⟨one, read, h⟩ := bind_ok h
      exact .after begun (.member before name (gap_of_colon between)) (strict s₂ one read) (ih h)

theorem strict_entries {item : Reader α} (h : Strict item) : Strict (entries item) := by
  intro s made read
  unfold entries at read
  split at read
  · rename_i found
    have remains : Bracket.object.Remains true _ made.2 := remains_of_entriesLoop h read
    exact remains.spans (gap_of_skipGap found)
  · cases read

theorem null_of_unit {s : List Char} {made : Unit × List Char} (h : unit s = .ok made) :
    ∃ s₁, Gap s s₁ ∧ Written (.value .null) s₁ made.2 := by
  unfold unit at h
  split at h
  · rename_i found
    obtain ⟨_, word, h⟩ := map_ok h
    cases h
    obtain rfl := eq_of_word? word
    exact ⟨_, gap_of_skipGap found, .null⟩
  · cases h

theorem quoted_of_variantName {known : List (String × α)} {s : List Char} {made : α × List Char}
    (h : variantName known s = .ok made) :
    ∃ name, known.lookup name = some made.1 ∧ Quoted (marks name) s made.2 := by
  obtain ⟨⟨name, rest⟩, read, h⟩ := bind_ok h
  simp only at h
  split at h
  · rename_i found
    cases h
    exact ⟨name, found, quoted_of_string read⟩
  · cases h

/-- A variant that was read is its name, or an object with the name and null. -/
theorem written_of_variant {known : List (String × α)} {s : List Char} {made : α × List Char}
    (h : variant known s = .ok made) : ∃ name s₁, known.lookup name = some made.1 ∧ Gap s s₁ ∧
      (Written (.value (.ofText name)) s₁ made.2 ∨
        Written (.value (.ofMembers [(name, .null)])) s₁ made.2) := by
  unfold variant at h
  split at h
  · cases h
  · rename_i found
    obtain ⟨name, known, quoted⟩ := quoted_of_variantName h
    exact ⟨name, _, known, gap_of_skipGap found, .inl (.text quoted)⟩
  · rename_i found
    split at h
    · cases h
    · cases h
    · rename_i before
      obtain ⟨one, named, h⟩ := bind_ok h
      obtain ⟨name, known, quoted⟩ := quoted_of_variantName named
      obtain ⟨s₂, colon, h⟩ := bind_ok h
      obtain ⟨⟨⟨⟩, s₃⟩, unit, h⟩ := bind_ok h
      obtain ⟨s₄, after, null⟩ := null_of_unit unit
      simp only at h
      split at h
      · rename_i closed
        cases h
        exact ⟨name, _, known, gap_of_skipGap found, .inr (.object (.lastMember (gap_of_skipGap before)
          quoted (gap_of_colon colon) after null (gap_of_skipGap closed)))⟩
      · cases h
      · cases h
    · cases h
  · cases h

theorem strict_variant (known : List (String × α)) : Strict (variant known) := by
  intro s made read
  obtain ⟨name, s₁, -, gap, written⟩ := written_of_variant read
  exact written.elim (·.spans gap) (·.spans gap)

namespace Record
variable {r : Record σ}

theorem remains_of_membersLoop (strict : ∀ f ∈ r.fields, Strict f.read) {fuel : Nat} {first : Bool}
    {seen : List String} {v : σ} {s : List Char} {made : σ × List Char}
    (h : r.membersLoop fuel first seen v s = .ok made) : Bracket.object.Remains first s made.2 := by
  induction fuel generalizing first seen v s with
  | zero => cases h
  | succ fuel ih =>
    obtain ⟨next, found, h⟩ := bind_ok h
    cases next with
    | closed rest =>
      simp only at h
      split at h
      · cases h
      · cases h
        exact .closed (gap_of_closedName found)
    | item k rest =>
      obtain ⟨s', s₁, begun, before, name⟩ := begun_of_nextName found
      simp only at h
      split at h
      · obtain ⟨s₂, between, h⟩ := bind_ok h
        obtain ⟨s₃, skipped, h⟩ := bind_ok h
        exact .after begun (.member before name (gap_of_colon between)) (spans_of_skip skipped) (ih h)
      · rename_i f known
        split at h
        · cases h
        · obtain ⟨s₂, between, h⟩ := bind_ok h
          obtain ⟨one, read, h⟩ := bind_ok h
          exact .after begun (.member before name (gap_of_colon between))
            (strict f (List.mem_of_find?_eq_some known) s₂ one read) (ih h)

theorem gap_of_endOfList {s rest : List Char} (h : endOfList s = .ok rest) : Gap s (']' :: rest) := by
  unfold endOfList at h
  split at h
  · rename_i found
    cases h
    exact gap_of_skipGap found
  · split at h <;> cases h
  · cases h
  · cases h

theorem remains_of_positions {fs : List (Field σ)} (strict : ∀ f ∈ fs, Strict f.read) {first : Bool}
    {v : σ} {s : List Char} {made : σ × List Char} (h : r.positions first fs v s = .ok made) :
    Bracket.list.Remains first s made.2 := by
  induction fs generalizing first v s with
  | nil =>
    obtain ⟨rest, ended, h⟩ := bind_ok h
    cases h
    exact .closed (gap_of_endOfList ended)
  | cons f fs ih =>
    obtain ⟨here, later⟩ := List.forall_mem_cons.1 strict
    obtain ⟨next, found, h⟩ := bind_ok h
    cases next with
    | closed rest =>
      simp only at h
      split at h
      · cases h
      · cases h
        exact .closed (gap_of_closedElement found)
    | item u rest =>
      obtain ⟨one, read, h⟩ := bind_ok h
      obtain ⟨s', begun, gap⟩ := begun_of_nextElement found
      exact .after begun (.item gap) (here rest one read) (ih later h)

theorem strict_reader (strict : ∀ f ∈ r.fields, Strict f.read) : Strict r.reader := by
  intro s made read
  unfold reader at read
  split at read
  · rename_i found
    have remains := remains_of_membersLoop strict read
    exact remains.spans (gap_of_skipGap found)
  · rename_i found
    have remains := remains_of_positions strict read
    exact remains.spans (gap_of_skipGap found)
  · cases read

end Record

theorem parse_ok {read : Reader α} {t : String} {a : α} (h : parse read t = .ok a) :
    ∃ rest, read t.toList = .ok (a, rest) ∧ Gap rest [] := by
  obtain ⟨⟨a', rest⟩, taken, ended⟩ := bind_ok (mapError_ok h)
  simp only at ended
  split at ended
  · rename_i found
    cases ended
    exact ⟨rest, taken, gap_of_skipGap found⟩
  · cases ended

/-- A text that was read is a value. -/
theorem written_of_parse {read : Reader α} (strict : Strict read) {t : String} {a : α}
    (h : parse read t = .ok a) : ∃ x, WrittenAs t x := by
  obtain ⟨rest, taken, after⟩ := parse_ok h
  obtain ⟨s₁, x, before, written⟩ := strict _ _ taken
  exact ⟨x, s₁, rest, before, written, after⟩

end Clearance.Json
