import Clearance.Json.Value
import Clearance.Proofs.Json.Forms
import Clearance.Proofs.Json.Unambiguous

/-!
Both texts of a value are JSON, and of no value but the one that they were made of. The compact one has no
blanks, and characters are escaped only where they must be.
-/
namespace Clearance.Json

/-! ### Strings -/

theorem hexDigit_digitChar {n : Nat} (small : n < 16) : HexDigit (Nat.digitChar n) n :=
  ⟨small, .inl rfl⟩

theorem quad_hexPair {n : Nat} (small : n < 256) (rest : List Char) :
    Quad n ('0' :: '0' :: (Text.hexPair n ++ rest)) rest := by
  have high : n / 16 < 16 := by omega
  have low : n % 16 < 16 := by omega
  have number : 0x1000 * 0 + 0x100 * 0 + 0x10 * (n / 16) + n % 16 = n := by omega
  have zero : HexDigit '0' 0 := hexDigit_digitChar (n := 0) (by omega)
  rw [← number]
  exact .digits zero zero (by rw [number]; exact hexDigit_digitChar high)
    (by rw [number]; exact hexDigit_digitChar low)

theorem spelled_escaped (c : Char) (rest : List Char) : Spelled (.char c) (escaped c ++ rest) rest := by
  unfold escaped
  split
  · exact .letter (by decide)
  · exact .letter (by decide)
  · exact .letter (by decide)
  · exact .letter (by decide)
  · exact .letter (by decide)
  · exact .letter (by decide)
  · exact .letter (by decide)
  · rename_i quote backslash _ _ _ _ _
    split
    · rename_i control
      have small : c.toNat < 256 := by
        have below : c.toNat < ' '.toNat := control
        have space : ' '.toNat = 32 := rfl
        omega
      exact .unit (quad_hexPair small rest)
    · rename_i printed
      exact .plain (Char.not_lt.1 printed) (fun h => quote h) (fun h => backslash h)

theorem quoted_escaped (l rest : List Char) :
    Quoted (l.map .char) (l.flatMap escaped ++ '"' :: rest) rest := by
  induction l with
  | nil => exact .close
  | cons c l ih =>
    rw [List.flatMap_cons, List.append_assoc]
    exact .next (spelled_escaped c _) ih

theorem quote_append (s : String) (rest : List Char) :
    quote s ++ rest = '"' :: (s.toList.flatMap escaped ++ '"' :: rest) := by simp [quote]

/-! ### Values -/

namespace Value

mutual
/-- What a value is in the grammar. -/
def datum : Value → Datum
  | null => .null
  | boolean b => .boolean b
  | text s => .ofText s
  | list l => .list (data l)
  | object l => .ofMembers (memberData l)

def data : List Value → List Datum
  | [] => []
  | v :: l => v.datum :: data l

def memberData : List (String × Value) → List (String × Datum)
  | [] => []
  | (k, v) :: l => (k, v.datum) :: memberData l
end

theorem data_eq (l : List Value) : data l = l.map datum := by
  induction l with
  | nil => rfl
  | cons v l ih => rw [data, ih, List.map_cons]

theorem memberData_eq (l : List (String × Value)) :
    memberData l = l.map fun m => (m.1, m.2.datum) := by
  induction l with
  | nil => rfl
  | cons m l ih => rw [memberData, ih, List.map_cons]

/-- Induction over values, with all items or members of one at once. -/
theorem induct {P : Value → Prop} (null : P null) (boolean : ∀ b, P (boolean b))
    (text : ∀ s, P (text s)) (list : ∀ l, (∀ v ∈ l, P v) → P (list l))
    (object : ∀ l, (∀ m ∈ l, P m.2) → P (object l)) (v : Value) : P v := by
  match v with
  | .null => exact null
  | .boolean b => exact boolean b
  | .text s => exact text s
  | .list l => exact list l fun w _ => induct null boolean text list object w
  | .object l =>
    refine object l fun m mem => ?_
    have smaller : sizeOf m.2 < sizeOf l := by
      have whole := List.sizeOf_lt_of_mem mem
      cases m
      simp only [Prod.mk.sizeOf_spec] at whole ⊢
      omega
    exact induct null boolean text list object m.2

theorem whole_datum (v : Value) : v.datum.Whole := by
  induction v using induct with
  | null => exact .null
  | boolean b => exact .boolean
  | text s => exact .text
  | list l ih =>
    rw [datum, data_eq]
    exact .list (List.forall_mem_map.2 ih)
  | object l ih =>
    rw [datum, memberData_eq]
    exact .object (List.forall_mem_map.2 ih)

theorem datum_texts (l : List String) : (texts l).datum = .ofList .ofText l := by
  simp only [texts, datum, data_eq, List.map_map, Datum.ofList]
  rfl

theorem datum_ofOption {α : Type} (f : α → Value) (o : Option α) :
    (ofOption f o).datum = .ofOption (fun a => (f a).datum) o := by
  cases o <;> rfl

theorem ofOption_injective {α : Type} {f : α → Value} (apart : Function.Injective f)
    (present : ∀ a, f a ≠ null) : Function.Injective (ofOption f) := by
  intro o o' same
  match o, o' with
  | none, none => rfl
  | none, some a => exact absurd same.symm (present a)
  | some a, none => exact absurd same (present a)
  | some a, some b => exact congrArg some (apart same)

theorem eq_of_map_eq {α β : Type} {f : α → β} {l l' : List α} (apart : ∀ a ∈ l, ∀ b, f a = f b → a = b)
    (same : l.map f = l'.map f) : l = l' := by
  induction l generalizing l' with
  | nil => exact (List.map_eq_nil_iff.1 same.symm).symm
  | cons a l ih =>
    obtain ⟨b, l', rfl, first, others⟩ := List.map_eq_cons_iff.1 same.symm
    obtain ⟨here, later⟩ := List.forall_mem_cons.1 apart
    rw [here b first.symm, ih later others.symm]

theorem datum_inj {v w : Value} (same : v.datum = w.datum) : v = w := by
  induction v using induct generalizing w with
  | null => cases w <;> first | rfl | cases same
  | boolean b => cases w <;> cases same; rfl
  | text s =>
    cases w with
    | text s' => rw [marks_injective (Datum.text.inj same)]
    | _ => cases same
  | list l ih =>
    cases w with
    | list l' =>
      replace same := Datum.list.inj same
      rw [data_eq, data_eq] at same
      rw [eq_of_map_eq (fun v mem _ => ih v mem) same]
    | _ => cases same
  | object l ih =>
    cases w with
    | object l' =>
      replace same := Datum.ofMembers_injective same
      rw [memberData_eq, memberData_eq] at same
      refine congrArg object (eq_of_map_eq ?_ same)
      intro m mem m' here
      obtain ⟨name, value⟩ := Prod.mk.inj here
      exact Prod.ext name (ih m mem value)
    | _ => cases same

/-! ### Texts -/

/-- Parts one after the other, with a comma between them. -/
def separated {α : Type} (part : α → List Char) : List α → List Char
  | [] => []
  | [a] => part a
  | a :: b :: l => part a ++ ',' :: separated part (b :: l)

def Blank (l : List Char) : Prop := ∀ c ∈ l, isGap c = true

theorem Blank.gap {l : List Char} (blank : Blank l) (s : List Char) : Gap (l ++ s) s := by
  induction l with
  | nil => exact .none
  | cons c l ih =>
    obtain ⟨here, later⟩ := List.forall_mem_cons.1 blank
    exact .blank here (ih later)

section Layout
variable {line space : List Char} {chars : Value → List Char} {s rest : List Char}

/-- The items of a list, each after the same blanks. -/
theorem written_items (blank : Blank line) {l : List Value} (some : l ≠ [])
    (each : ∀ v ∈ l, ∀ rest, Written (.value v.datum) (chars v ++ rest) rest)
    (close : Gap s (']' :: rest)) :
    Written (.items (data l)) (separated (fun v => line ++ chars v) l ++ s) rest := by
  induction l with
  | nil => contradiction
  | cons v l ih =>
    obtain ⟨here, later⟩ := List.forall_mem_cons.1 each
    cases l with
    | nil =>
      rw [separated, List.append_assoc]
      exact .lastItem (blank.gap _) (here s) close
    | cons w l =>
      rw [separated, List.append_assoc, List.append_assoc]
      exact .item (blank.gap _) (here _) .none (ih (List.cons_ne_nil _ _) later)

/-- A member on its own, with blanks before it and after the colon. -/
def memberPart (line space : List Char) (chars : Value → List Char) (m : String × Value) : List Char :=
  line ++ '"' :: (m.1.toList.flatMap escaped ++ '"' :: ':' :: (space ++ chars m.2))

theorem written_members (blank : Blank line) (blank' : Blank space) {l : List (String × Value)}
    (some : l ≠ []) (each : ∀ m ∈ l, ∀ rest, Written (.value m.2.datum) (chars m.2 ++ rest) rest)
    (close : Gap s ('\x7d' :: rest)) :
    Written (.members ((memberData l).map fun m => (marks m.1, m.2)))
      (separated (memberPart line space chars) l ++ s) rest := by
  induction l with
  | nil => contradiction
  | cons m l ih =>
    obtain ⟨here, later⟩ := List.forall_mem_cons.1 each
    cases l with
    | nil =>
      simp only [separated, memberPart, List.append_assoc, List.cons_append]
      exact .lastMember (blank.gap _) (quoted_escaped m.1.toList _) .none (blank'.gap _) (here s) close
    | cons m' l =>
      have more := ih (List.cons_ne_nil m' l) later
      rw [separated, memberPart]
      simp only [List.append_assoc, List.cons_append]
      exact .member (blank.gap _) (quoted_escaped m.1.toList _) .none (blank'.gap _) (here _) .none more

end Layout

theorem compactItems_eq (l : List Value) :
    compactItems l = separated (fun v => [] ++ v.compactChars) l := by
  induction l with
  | nil => rfl
  | cons v l ih =>
    cases l with
    | nil => rfl
    | cons w l => rw [compactItems, ih, separated, List.nil_append]

theorem prettyItems_eq (depth : Nat) (l : List Value) :
    prettyItems depth l = separated (fun v => newLine depth ++ v.prettyChars depth) l := by
  induction l with
  | nil => rfl
  | cons v l ih =>
    cases l with
    | nil => rfl
    | cons w l => rw [prettyItems, ih, separated]

theorem compactMembers_eq (l : List (String × Value)) :
    compactMembers l = separated (memberPart [] [] compactChars) l := by
  induction l with
  | nil => rfl
  | cons m l ih =>
    cases l with
    | nil => simp [compactMembers, separated, memberPart, quote]
    | cons m' l => simp [compactMembers, ih, separated, memberPart, quote]

theorem prettyMembers_eq (depth : Nat) (l : List (String × Value)) :
    prettyMembers depth l = separated (memberPart (newLine depth) [' '] (prettyChars depth)) l := by
  induction l with
  | nil => rfl
  | cons m l ih =>
    cases l with
    | nil => simp [prettyMembers, separated, memberPart, quote]
    | cons m' l => simp [prettyMembers, ih, separated, memberPart, quote]

theorem blank_nil : Blank [] := List.forall_mem_nil _

theorem blank_newLine (depth : Nat) : Blank (newLine depth) := by
  intro c mem
  rcases List.mem_cons.1 mem with rfl | mem
  · rfl
  · rw [List.eq_of_mem_replicate mem]
    rfl

theorem written_word (b : Bool) (rest : List Char) : Written (.value (.boolean b)) (word b ++ rest) rest := by
  cases b with
  | true => exact .isTrue
  | false => exact .isFalse

theorem written_quote (t : String) (rest : List Char) :
    Written (.value (.ofText t)) (quote t ++ rest) rest := by
  rw [quote_append]
  exact .text (quoted_escaped t.toList rest)

theorem written_compactChars (v : Value) (rest : List Char) :
    Written (.value v.datum) (v.compactChars ++ rest) rest := by
  induction v using induct generalizing rest with
  | null => exact .null
  | boolean b => exact written_word b rest
  | text s => exact written_quote s rest
  | list l ih =>
    have split : (list l).compactChars ++ rest = '[' :: (compactItems l ++ ']' :: rest) := by
      simp [compactChars]
    rw [split, compactItems_eq]
    by_cases empty : l = []
    · subst empty
      exact .emptyList .none
    · exact .list (written_items blank_nil empty ih .none)
  | object l ih =>
    have split : (object l).compactChars ++ rest = '\x7b' :: (compactMembers l ++ '\x7d' :: rest) := by
      simp [compactChars]
    rw [split, compactMembers_eq]
    by_cases empty : l = []
    · subst empty
      exact .emptyObject .none
    · exact .object (written_members blank_nil blank_nil empty ih .none)

theorem written_prettyChars (v : Value) (depth : Nat) (rest : List Char) :
    Written (.value v.datum) (v.prettyChars depth ++ rest) rest := by
  induction v using induct generalizing depth rest with
  | null => exact .null
  | boolean b => exact written_word b rest
  | text s => exact written_quote s rest
  | list l ih =>
    cases l with
    | nil => exact .emptyList .none
    | cons v l =>
      have split : (list (v :: l)).prettyChars depth ++ rest =
          '[' :: (prettyItems (depth + 1) (v :: l) ++ (newLine depth ++ ']' :: rest)) := by
        simp [prettyChars]
      rw [split, prettyItems_eq]
      exact .list (written_items (blank_newLine _) (List.cons_ne_nil v l)
        (fun w mem => ih w mem (depth + 1)) ((blank_newLine depth).gap _))
  | object l ih =>
    cases l with
    | nil => exact .emptyObject .none
    | cons m l =>
      have split : (object (m :: l)).prettyChars depth ++ rest =
          '\x7b' :: (prettyMembers (depth + 1) (m :: l) ++ (newLine depth ++ '\x7d' :: rest)) := by
        simp [prettyChars]
      have space : Blank [' '] := List.forall_mem_singleton.2 rfl
      rw [split, prettyMembers_eq]
      exact .object (written_members (blank_newLine _) space (List.cons_ne_nil m l)
        (fun w mem => ih w mem (depth + 1)) ((blank_newLine depth).gap _))

/-! ### Values from their texts -/

theorem writtenAs_compact (v : Value) : WrittenAs v.compact v.datum := by
  have written := written_compactChars v []
  rw [List.append_nil] at written
  exact writtenAs_ofList .none written .none

theorem writtenAs_prettyChars (v : Value) (depth : Nat) :
    WrittenAs (String.ofList (v.prettyChars depth)) v.datum := by
  have written := written_prettyChars v depth []
  rw [List.append_nil] at written
  exact writtenAs_ofList .none written .none

end Value

/-- The text is JSON, and of no value but this one whose strings are texts. -/
def Denotes (t : String) (x : Datum) : Prop := ∀ y : Datum, y.Whole ∧ WrittenAs t y ↔ y = x

theorem Denotes.inj {t : String} {x y : Datum} (h : Denotes t x) (h' : Denotes t y) : x = y :=
  (h' x).1 ((h x).2 rfl)

namespace Value

theorem denotes_of_written {t : String} {v : Value} (h : WrittenAs t v.datum) : Denotes t v.datum := by
  intro y
  constructor
  · rintro ⟨whole, written⟩
    exact written.unique whole h v.whole_datum
  · rintro rfl
    exact ⟨v.whole_datum, h⟩

theorem denotes_compact (v : Value) : Denotes v.compact v.datum := denotes_of_written v.writtenAs_compact

theorem denotes_prettyChars (v : Value) (depth : Nat) :
    Denotes (String.ofList (v.prettyChars depth)) v.datum :=
  denotes_of_written (v.writtenAs_prettyChars depth)

theorem denotes_pretty (v : Value) : Denotes v.pretty v.datum := v.denotes_prettyChars 0

theorem compact_injective : Function.Injective compact := fun v w same =>
  datum_inj (v.denotes_compact.inj (same ▸ w.denotes_compact))

theorem pretty_injective : Function.Injective pretty := fun v w same =>
  datum_inj (v.denotes_pretty.inj (same ▸ w.denotes_pretty))

end Value
end Clearance.Json
