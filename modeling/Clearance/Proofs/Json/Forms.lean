import Clearance.Proofs.Except
import Clearance.Proofs.Json.Taking

/-!
The forms of values that are taken. Some readers take values of one form only and make of each what it
is the form of; of an object it is told which members it has of a name.
-/
namespace Clearance
open Json

theorem exists_forall₂ {α β : Type} {R : α → β → Prop} {l : List α} (h : ∀ a ∈ l, ∃ b, R a b) :
    ∃ bs, List.Forall₂ R l bs := by
  induction l with
  | nil => exact ⟨[], .nil⟩
  | cons a l ih =>
    obtain ⟨⟨b, here⟩, later⟩ := List.forall_mem_cons.1 h
    obtain ⟨bs, all⟩ := ih later
    exact ⟨b :: bs, .cons here all⟩

theorem exists_map_eq {α β : Type} {f : α → β} {l : List β} (h : ∀ b ∈ l, ∃ a, b = f a) :
    ∃ as : List α, l = as.map f := by
  obtain ⟨as, all⟩ := exists_forall₂ h
  exact ⟨as, List.forall₂_eq_eq_eq ▸ List.forall₂_map_right_iff.2 all⟩

namespace Json

/-- The reader takes the values of one form, and makes of each what it is the form of. -/
structure Exact {α : Type} (read : Reader α) (form : α → Datum) : Prop where
  strict : Strict read
  reads : ∀ a, Reads read (form a) a
  takes : ∀ x : Datum, x.Whole → Takes read x → ∃ a, x = form a

variable {α σ : Type} {item : Reader α} {form : α → Datum} {x : Datum}

theorem marks_injective : Function.Injective marks := fun _ _ same =>
  String.toList_injective (List.map_injective_iff.2 (fun _ _ h => Mark.char.inj h) same)

theorem Datum.ofText_injective : Function.Injective Datum.ofText := fun _ _ same =>
  marks_injective (Datum.text.inj same)

theorem Datum.ofMembers_injective : Function.Injective Datum.ofMembers := by
  intro l l' same
  have apart : Function.Injective fun m : String × Datum => (Json.marks m.1, m.2) := by
    intro m m' same
    obtain ⟨name, value⟩ := Prod.mk.inj same
    exact Prod.ext (marks_injective name) value
  exact List.map_injective_iff.2 apart (Datum.object.inj same)

theorem exact_text (expected : String) : Exact (text expected) .ofText where
  strict := strict_text expected
  reads := reads_text expected
  takes x whole taken := by
    obtain ⟨s, s₁, rest, made, gap, written, read⟩ := taken
    unfold text at read
    rw [gap.skip written.atToken] at read
    split at read
    · obtain ⟨l, rfl⟩ := written.text_of_head
      exact whole.marks
    · cases read

theorem Written.boolean_of_head {c : Char} {s rest : List Char} (h : Written (.value x) (c :: s) rest)
    (letter : c = 't' ∨ c = 'f') : ∃ b, x = .boolean b := by
  rcases letter with rfl | rfl
  · cases h with
    | isTrue => exact ⟨true, rfl⟩
    | number h => exact absurd rfl (h.head_ne (d := 't'))
  · cases h with
    | isFalse => exact ⟨false, rfl⟩
    | number h => exact absurd rfl (h.head_ne (d := 'f'))

theorem exact_boolean : Exact boolean .boolean where
  strict := strict_boolean
  reads := reads_boolean
  takes x _ taken := by
    obtain ⟨s, s₁, rest, made, gap, written, read⟩ := taken
    unfold boolean at read
    rw [gap.skip written.atToken] at read
    split at read
    · exact written.boolean_of_head (.inl rfl)
    · exact written.boolean_of_head (.inr rfl)
    · cases read

theorem takes_nullable (taken : Takes (nullable item) x) : x = .null ∨ Takes item x := by
  obtain ⟨s, s₁, rest, made, gap, written, read⟩ := taken
  unfold nullable at read
  rw [gap.skip written.atToken] at read
  split at read
  · left
    by_contra present
    exact written.head_ne_null present rfl
  · obtain ⟨one, here, -⟩ := map_ok read
    exact .inr ⟨s₁, s₁, rest, one, .none, written, here⟩

theorem exact_nullable (h : Exact item form) (present : ∀ a, form a ≠ .null) :
    Exact (nullable item) (.ofOption form) where
  strict := strict_nullable h.strict
  reads := reads_ofOption h.reads present
  takes x whole taken := by
    rcases takes_nullable taken with null | taken
    · exact ⟨none, null⟩
    · obtain ⟨a, rfl⟩ := h.takes x whole taken
      exact ⟨some a, rfl⟩

theorem exact_elements (h : Exact item form) : Exact (elements item) (.ofList form) where
  strict := strict_elements h.strict
  reads := reads_ofList h.reads
  takes x whole taken := by
    obtain ⟨l, rfl, each⟩ := takes_elements taken h.strict
    obtain ⟨as, rfl⟩ := exists_map_eq fun y mem => h.takes y (whole.items y mem) (each y mem)
    exact ⟨as, rfl⟩

end Json

/-- An object has at most one member of a name. Whether it has none, or one with a certain value, is what
the rest says. -/
inductive AtMostOne (l : List (String × Datum)) (name : String) (absent : Prop)
    (given : Datum → Prop) : Prop where
  | absent : valuesOf name l = [] → absent → AtMostOne l name absent given
  | given {x : Datum} : valuesOf name l = [x] → given x → AtMostOne l name absent given

namespace AtMostOne
variable {l : List (String × Datum)} {name : String} {absent : Prop} {given : Datum → Prop}

theorem length_le (h : AtMostOne l name absent given) : (valuesOf name l).length ≤ 1 := by
  cases h with
  | absent none _ => exact none ▸ Nat.zero_le 1
  | given one _ => exact one ▸ Nat.le_refl 1

theorem of_mem (h : AtMostOne l name absent given) {x : Datum} (mem : (name, x) ∈ l) : given x := by
  have value := mem_valuesOf.2 mem
  cases h with
  | absent none _ =>
    rw [none] at value
    cases value
  | given one h =>
    rw [one] at value
    exact List.mem_singleton.1 value ▸ h

theorem of_not_mem (h : AtMostOne l name absent given) (missing : name ∉ l.map Prod.fst) : absent := by
  cases h with
  | absent _ h => exact h
  | @given x one _ =>
    have mem : (name, x) ∈ l := mem_valuesOf.1 (one ▸ List.mem_singleton_self x)
    exact absurd (List.mem_map_of_mem mem) missing

theorem exists_given {α : Type} {absent : α → Prop} {given : α → Datum → Prop}
    (once : (valuesOf name l).length ≤ 1)
    (none : ∃ a, absent a) (one : ∀ y, (name, y) ∈ l → ∃ a, given a y) :
    ∃ a, AtMostOne l name (absent a) (given a) := by
  match values : valuesOf name l, once with
  | [], _ => exact none.imp fun a => .absent values
  | [y], _ =>
    have mem : (name, y) ∈ l := mem_valuesOf.1 (values ▸ List.mem_singleton_self y)
    exact (one y mem).imp fun a => .given values

end AtMostOne

/-- Where a name has one member at most, an option says which. -/
theorem exists_option {α : Type} {form : α → Datum} {l : List (String × Datum)} {name : String}
    (once : (valuesOf name l).length ≤ 1) (formed : ∀ y, (name, y) ∈ l → ∃ a, y = form a) :
    ∃ o : Option α, ∀ x, (name, x) ∈ l ↔ ∃ a, o = some a ∧ x = form a := by
  simp only [← mem_valuesOf] at formed ⊢
  generalize valuesOf name l = values at once formed ⊢
  match values, once with
  | [], _ => exact ⟨none, fun x => by simp⟩
  | [y], _ =>
    obtain ⟨a, rfl⟩ := formed y List.mem_cons_self
    exact ⟨some a, fun x => by simp⟩

/-- What a record's members say of one field. -/
theorem Json.Record.Fits.exists_option {α σ : Type} {r : Record σ} {l : List (String × Datum)}
    (fits : r.Fits l) (whole : ∀ m ∈ l, m.2.Whole) {item : Reader α} {form : α → Datum}
    (exact : Exact item form) (name : String) {f : Field σ} (found : r.field? name = some f)
    (set : α → σ → σ) (read : f.read = (Field.of name item set).read) :
    ∃ o : Option α, ∀ x, (name, x) ∈ l ↔ ∃ a, o = some a ∧ x = form a := by
  have known : r.knows name = true := by simp [Record.knows, found]
  apply Clearance.exists_option (Record.once_iff.1 fits.once name known)
  intro y mem
  have taken := fits.takes _ mem f found
  rw [read] at taken
  exact exact.takes y (whole _ mem) (takes_field taken)

end Clearance
