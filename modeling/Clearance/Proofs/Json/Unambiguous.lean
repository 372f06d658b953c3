import Clearance.Proofs.Json.Decoding

/-!
JSON is unambiguous. A text, and whatever part of one, is of one value at most among those that have no
halves standing alone; with these, two of them amount to the character that they are the halves of.
-/
namespace Clearance.Json

/-- No half stands alone in a text or a name. -/
inductive Datum.Whole : Datum → Prop where
  | null : Whole .null
  | boolean {b : Bool} : Whole (.boolean b)
  | number : Whole .number
  | text {t : String} : Whole (.ofText t)
  | list {l : List Datum} : (∀ x ∈ l, Whole x) → Whole (.list l)
  | object {l : List (String × Datum)} : (∀ m ∈ l, Whole m.2) → Whole (.ofMembers l)

theorem Datum.Whole.items {l : List Datum} (h : Whole (.list l)) : ∀ x ∈ l, x.Whole := by
  generalize whole : Datum.list l = x at h
  cases h with
  | list items =>
    obtain rfl := Datum.list.inj whole
    exact items
  | _ => cases whole

theorem Datum.Whole.members {l : List (List Mark × Datum)} (h : Whole (.object l)) :
    ∃ l', Datum.object l = .ofMembers l' ∧ ∀ m ∈ l', m.2.Whole := by
  generalize whole : Datum.object l = x at h
  cases h with
  | object members => exact ⟨_, rfl, members⟩
  | _ => cases whole

theorem Datum.Whole.of_mem {l : List (String × Datum)} (h : Whole (.ofMembers l)) :
    ∀ m ∈ l, m.2.Whole := by
  intro m mem
  obtain ⟨l', same, whole⟩ := Whole.members h
  have mem' : (Json.marks m.1, m.2) ∈ l'.map fun m => (Json.marks m.1, m.2) :=
    Datum.object.inj same ▸ List.mem_map_of_mem mem
  obtain ⟨m', mem', here⟩ := List.mem_map.1 mem'
  exact (Prod.mk.inj here).2 ▸ whole m' mem'

theorem Datum.Whole.marks {l : List Mark} (h : Whole (.text l)) : ∃ t, Datum.text l = .ofText t := by
  generalize whole : Datum.text l = x at h
  cases h with
  | text => exact ⟨_, rfl⟩
  | _ => cases whole

theorem Datum.Whole.cons_member {k : List Mark} {x : Datum} {l : List (List Mark × Datum)}
    (h : Datum.Whole (.object ((k, x) :: l))) :
    ∃ name, k = Json.marks name ∧ x.Whole ∧ Datum.Whole (.object l) := by
  obtain ⟨members, same, whole⟩ := h.members
  obtain ⟨m, others, rfl, first, rfl⟩ := List.map_eq_cons_iff.1 (Datum.object.inj same).symm
  obtain ⟨rfl, rfl⟩ := Prod.mk.inj first
  obtain ⟨here, later⟩ := List.forall_mem_cons.1 whole
  exact ⟨m.1, rfl, here, .object later⟩

theorem whole_variant (name : String) : (Datum.ofMembers [(name, .null)]).Whole :=
  .object (List.forall_mem_singleton.2 .null)

theorem Number.head {s rest : List Char} (h : Number s rest) :
    ∃ c s', s = c :: s' ∧ (c = '-' ∨ c.isDigit = true) := by
  cases h with
  | positive h =>
    obtain ⟨c, s', rfl, digit⟩ := h.head
    exact ⟨c, s', rfl, .inr digit⟩
  | negative _ => exact ⟨'-', _, rfl, .inl rfl⟩

theorem Number.head_ne {c d : Char} {s rest : List Char} (h : Number (c :: s) rest)
    (sign : d ≠ '-' := by decide) (digit : d.isDigit = false := by decide) : c ≠ d := by
  rintro rfl
  obtain ⟨_, _, heq, minus | isDigit⟩ := h.head <;> cases heq
  · exact sign minus
  · cases digit.symm.trans isDigit

section Head
variable {x : Datum} {s rest : List Char}

theorem Written.list_of_head (h : Written (.value x) ('[' :: s) rest) : ∃ l, x = .list l := by
  cases h with
  | number h => exact absurd rfl (h.head_ne (d := '['))
  | emptyList _ => exact ⟨_, rfl⟩
  | list _ => exact ⟨_, rfl⟩

theorem Written.object_of_head (h : Written (.value x) ('\x7b' :: s) rest) : ∃ l, x = .object l := by
  cases h with
  | number h => exact absurd rfl (h.head_ne (d := '\x7b'))
  | emptyObject _ => exact ⟨_, rfl⟩
  | object _ => exact ⟨_, rfl⟩

theorem Written.text_of_head (h : Written (.value x) ('"' :: s) rest) : ∃ l, x = .text l := by
  cases h with
  | number h => exact absurd rfl (h.head_ne (d := '"'))
  | text _ => exact ⟨_, rfl⟩

end Head

variable {x y : Datum} {s s₁ s₂ rest rest' : List Char}

theorem Gap.unique (h : Gap s s₁) (token : AtToken s₁) (h' : Gap s s₂) (token' : AtToken s₂) :
    s₁ = s₂ := (h.skip token).symm.trans (h'.skip token')

/-- A text goes on with one character after blanks. -/
theorem Gap.head_unique {c d : Char} (h : Gap s (c :: rest)) (token : isGap c = false)
    (h' : Gap s (d :: rest')) (token' : isGap d = false) : c = d ∧ rest = rest' :=
  List.cons.inj (h.unique (atToken_cons token) h' (atToken_cons token'))

theorem Quoted.unique {t t' : String} (h : Quoted (marks t) s rest) (h' : Quoted (marks t') s rest') :
    t = t' ∧ rest = rest' :=
  Prod.mk.inj (Except.ok.inj ((string_quoted h).symm.trans (string_quoted h')))

theorem Written.rest_unique (h : Written (.value x) s rest) (h' : Written (.value y) s rest') :
    rest = rest' :=
  Except.ok.inj ((skip_written .none h).symm.trans (skip_written .none h'))

theorem Written.eq_number (h : Written (.value x) s rest) (number : Number s rest') : x = .number := by
  cases h with
  | number _ => rfl
  | null => exact absurd rfl (number.head_ne (d := 'n'))
  | isTrue => exact absurd rfl (number.head_ne (d := 't'))
  | isFalse => exact absurd rfl (number.head_ne (d := 'f'))
  | text _ => exact absurd rfl (number.head_ne (d := '"'))
  | emptyList _ | list _ => exact absurd rfl (number.head_ne (d := '['))
  | emptyObject _ | object _ => exact absurd rfl (number.head_ne (d := '\x7b'))

/-- After a part of a list or an object its bracket closes, or more comes after a comma. -/
inductive Onward (close : Char) (ended : Prop) (more : List Char → Prop) (s : List Char) : Prop where
  | closed {rest : List Char} : ended → Gap s (close :: rest) → Onward close ended more s
  | comma {s' : List Char} : Gap s (',' :: s') → more s' → Onward close ended more s

theorem Onward.unique {β : Type} {l l' : List β} {close : Char} {more more' : List Char → Prop}
    (h : Onward close (l = []) more s) (h' : Onward close (l' = []) more' s)
    (token : isGap close = false) (apart : close ≠ ',') (same : ∀ s', more s' → more' s' → l = l') :
    l = l' := by
  cases h with
  | closed ended before =>
    cases h' with
    | closed ended' _ => exact ended.trans ended'.symm
    | comma before' _ => exact absurd (before.head_unique token before' rfl).1 apart
  | comma before here =>
    cases h' with
    | closed _ before' => exact absurd (before.head_unique rfl before' token).1.symm apart
    | comma before' here' =>
      obtain ⟨-, rfl⟩ := before.head_unique rfl before' rfl
      exact same _ here here'

/-- The name of a member, and where its value starts. -/
def Named (k : List Mark) (s s' : List Char) : Prop :=
  ∃ s₁ s₂ s₃, Gap s ('"' :: s₁) ∧ Quoted k s₁ s₂ ∧ Gap s₂ (':' :: s₃) ∧ Gap s₃ s'

theorem Named.unique {t t' : String} (h : Named (marks t) s s₁) (token : AtToken s₁)
    (h' : Named (marks t') s s₂) (token' : AtToken s₂) : t = t' ∧ s₁ = s₂ := by
  obtain ⟨a, b, c, before, name, colon, after⟩ := h
  obtain ⟨a', b', c', before', name', colon', after'⟩ := h'
  obtain ⟨-, rfl⟩ := before.head_unique rfl before' rfl
  obtain ⟨rfl, rfl⟩ := name.unique name'
  obtain ⟨-, rfl⟩ := colon.head_unique rfl colon' rfl
  exact ⟨rfl, after.unique token after' token'⟩

theorem Written.first_item {l : List Datum} (h : Written (.items l) s rest) :
    ∃ x l' s₁ s₂, l = x :: l' ∧ Gap s s₁ ∧ Written (.value x) s₁ s₂ ∧
      Onward ']' (l' = []) (Written (.items l') · rest) s₂ := by
  cases h with
  | lastItem before value after => exact ⟨_, _, _, _, rfl, before, value, .closed rfl after⟩
  | item before value after more => exact ⟨_, _, _, _, rfl, before, value, .comma after more⟩

theorem Written.first_member {l : List (List Mark × Datum)} (h : Written (.members l) s rest) :
    ∃ k x l' s₁ s₂, l = (k, x) :: l' ∧ Named k s s₁ ∧ Written (.value x) s₁ s₂ ∧
      Onward '\x7d' (l' = []) (Written (.members l') · rest) s₂ := by
  cases h with
  | lastMember before name colon after value close =>
    exact ⟨_, _, _, _, _, rfl, ⟨_, _, _, before, name, colon, after⟩, value, .closed rfl close⟩
  | member before name colon after value comma more =>
    exact ⟨_, _, _, _, _, rfl, ⟨_, _, _, before, name, colon, after⟩, value, .comma comma more⟩

theorem Written.items_not_closed {l : List Datum} (h : Written (.items l) s rest) :
    ¬ Gap s (']' :: rest') := by
  intro closed
  obtain ⟨x, l', s₁, s₂, -, before, value, -⟩ := h.first_item
  obtain ⟨c, t, rfl, starts⟩ := value.head
  obtain ⟨rfl, -⟩ := before.head_unique (isGap_of_startsValue starts) closed rfl
  cases starts

theorem Written.members_not_closed {l : List (List Mark × Datum)} (h : Written (.members l) s rest) :
    ¬ Gap s ('\x7d' :: rest') := by
  intro closed
  obtain ⟨k, x, l', s₁, s₂, -, ⟨_, _, _, before, -⟩, -⟩ := h.first_member
  cases (before.head_unique rfl closed rfl).1

/-- No other value, and no other list of items or members, is what the text goes on with. -/
def Piece.Sole (s : List Char) : Piece → Prop
  | .value x => ∀ y rest, x.Whole → y.Whole → Written (.value y) s rest → x = y
  | .items l => ∀ l' rest, (∀ x ∈ l, x.Whole) → (∀ x ∈ l', x.Whole) → Written (.items l') s rest → l = l'
  | .members l => ∀ l' rest, Datum.Whole (.object l) → Datum.Whole (.object l') →
      Written (.members l') s rest → l = l'

theorem sole_items {l : List Datum} (before : Gap s s₁) (value : Written (.value x) s₁ s₂)
    (first : (Piece.value x).Sole s₁) (others : Onward ']' (l = []) (Piece.items l).Sole s₂) :
    (Piece.items (x :: l)).Sole s := by
  intro l' rest' whole whole' other
  obtain ⟨y, l', s₁', s₂', rfl, before', value', others'⟩ := other.first_item
  obtain ⟨here, later⟩ := List.forall_mem_cons.1 whole
  obtain ⟨here', later'⟩ := List.forall_mem_cons.1 whole'
  obtain rfl := before.unique value.atToken before' value'.atToken
  obtain rfl := first y s₂' here here' value'
  obtain rfl := value.rest_unique value'
  have same : l = l' := others.unique others' rfl (by decide) fun _ sole more =>
    sole l' rest' later later' more
  rw [same]

theorem sole_members {k : List Mark} {l : List (List Mark × Datum)} (name : Named k s s₁)
    (value : Written (.value x) s₁ s₂) (first : (Piece.value x).Sole s₁)
    (others : Onward '\x7d' (l = []) (Piece.members l).Sole s₂) :
    (Piece.members ((k, x) :: l)).Sole s := by
  intro l' rest' whole whole' other
  obtain ⟨k', y, l', s₁', s₂', rfl, name', value', others'⟩ := other.first_member
  obtain ⟨t, rfl, here, later⟩ := whole.cons_member
  obtain ⟨t', rfl, here', later'⟩ := whole'.cons_member
  obtain ⟨rfl, rfl⟩ := name.unique value.atToken name' value'.atToken
  obtain rfl := first y s₂' here here' value'
  obtain rfl := value.rest_unique value'
  have same : l = l' := others.unique others' rfl (by decide) fun _ sole more =>
    sole l' rest' later later' more
  rw [same]

theorem Written.sole {p : Piece} (h : Written p s rest) : p.Sole s := by
  -- on how it is written; the first character leaves one other way, or a number's
  induction h with
  | null =>
    intro y rest _ _ other
    cases other with
    | null => rfl
    | number number => exact Written.null.eq_number number
  | isTrue =>
    intro y rest _ _ other
    cases other with
    | isTrue => rfl
    | number number => exact Written.isTrue.eq_number number
  | isFalse =>
    intro y rest _ _ other
    cases other with
    | isFalse => rfl
    | number number => exact Written.isFalse.eq_number number
  | number number =>
    intro y rest _ _ other
    exact (other.eq_number number).symm
  | text quoted =>
    intro y rest whole whole' other
    obtain ⟨l, rfl⟩ := other.text_of_head
    obtain ⟨t, text⟩ := whole.marks
    obtain ⟨t', text'⟩ := whole'.marks
    obtain rfl := Datum.text.inj text
    obtain rfl := Datum.text.inj text'
    cases other with
    | text quoted' => rw [(quoted.unique quoted').1]
  | emptyList closed =>
    intro y rest _ _ other
    cases other with
    | emptyList _ => rfl
    | list items => exact absurd closed items.items_not_closed
    | number number => exact (Written.emptyList closed).eq_number number
  | list items ih =>
    intro y rest whole whole' other
    cases other with
    | emptyList closed => exact absurd closed items.items_not_closed
    | list items' => exact congrArg Datum.list (ih _ _ whole.items whole'.items items')
    | number number => exact (Written.list items).eq_number number
  | emptyObject closed =>
    intro y rest _ _ other
    cases other with
    | emptyObject _ => rfl
    | object members => exact absurd closed members.members_not_closed
    | number number => exact (Written.emptyObject closed).eq_number number
  | object members ih =>
    intro y rest whole whole' other
    cases other with
    | emptyObject closed => exact absurd closed members.members_not_closed
    | object members' => exact congrArg Datum.object (ih _ _ whole whole' members')
    | number number => exact (Written.object members).eq_number number
  | lastItem before value close ih => exact sole_items before value ih (.closed rfl close)
  | item before value comma more ih ihMore => exact sole_items before value ih (.comma comma ihMore)
  | lastMember before name colon after value close ih =>
    exact sole_members ⟨_, _, _, before, name, colon, after⟩ value ih (.closed rfl close)
  | member before name colon after value comma more ih ihMore =>
    exact sole_members ⟨_, _, _, before, name, colon, after⟩ value ih (.comma comma ihMore)

/-- A text is of one value. -/
theorem WrittenAs.unique {t : String} (h : WrittenAs t x) (whole : x.Whole) (h' : WrittenAs t y)
    (whole' : y.Whole) : x = y := by
  obtain ⟨s₁, s₂, before, value, -⟩ := h
  obtain ⟨s₁', s₂', before', value', -⟩ := h'
  obtain rfl := before.unique value.atToken before' value'.atToken
  exact value.sole y s₂' whole whole' value'

theorem WrittenAs.not_object {t : String} {l : List Mark} {l' : List (List Mark × Datum)}
    (h : WrittenAs t (.text l)) : ¬ WrittenAs t (.object l') := by
  rintro ⟨s₁', s₂', before', value', -⟩
  obtain ⟨s₁, s₂, before, value, -⟩ := h
  obtain rfl := before.unique value.atToken before' value'.atToken
  cases value with
  | text _ =>
    obtain ⟨_, other⟩ := value'.text_of_head
    cases other

end Clearance.Json
