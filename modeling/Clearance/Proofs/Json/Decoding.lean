import Mathlib.Data.List.Forall2
import Clearance.Proofs.Json.Skipping

/-!
Readers of typed values on texts that the grammar describes. A reader is told by the values that it
takes and by what it makes of them; how the values are written down does not matter.
-/
namespace Clearance.Json

variable {α σ : Type}

/-- The reader makes `a` of the value, however it is written. -/
def Reads (read : Reader α) (x : Datum) (a : α) : Prop :=
  ∀ ⦃s s₁ rest : List Char⦄, Gap s s₁ → Written (.value x) s₁ rest → read s = .ok (a, rest)

theorem reads_text (expected t : String) : Reads (text expected) (.text (marks t)) t := by
  intro s s₁ rest gap h
  unfold text
  rw [gap.skip h.atToken]
  cases h with
  | text quoted => exact string_quoted quoted

theorem reads_boolean (b : Bool) : Reads boolean (.boolean b) b := by
  intro s s₁ rest gap h
  unfold boolean
  rw [gap.skip h.atToken]
  cases h with
  | isTrue => rfl
  | isFalse => rfl

theorem Written.head_ne_null {x : Datum} {c : Char} {s rest : List Char}
    (h : Written (.value x) (c :: s) rest) (present : x ≠ .null) : c ≠ 'n' := by
  rintro rfl
  cases h with
  | null => contradiction
  | number number =>
    cases number with
    | positive h =>
      obtain ⟨_, _, heq, digit⟩ := h.head
      cases heq
      cases digit

theorem reads_null (item : Reader α) : Reads (nullable item) .null none := by
  intro s s₁ rest gap h
  unfold nullable
  rw [gap.skip h.atToken]
  cases h with
  | null => rfl

theorem reads_nullable {item : Reader α} {x : Datum} {a : α} (h : Reads item x a)
    (present : x ≠ .null) : Reads (nullable item) x (some a) := by
  intro s s₁ rest gap written
  unfold nullable
  rw [gap.skip written.atToken]
  split
  · exact absurd rfl (written.head_ne_null present)
  · rw [h .none written]
    rfl

theorem reads_map {β : Type} {item : Reader α} {x : Datum} {a : α} (f : α → β) (h : Reads item x a) :
    Reads (fun s => (item s).map fun (a, rest) => (f a, rest)) x (f a) := by
  intro s s₁ rest gap written
  simp only [h gap written, Except.map]

theorem reads_field {item : Reader α} {x : Datum} {a : α} (name : String) (set : α → σ → σ)
    (h : Reads item x a) : Reads (Field.of name item set).read x (set a) := reads_map set h

namespace Datum

def ofText (t : String) : Datum := .text (marks t)

def ofOption (f : α → Datum) : Option α → Datum
  | none => .null
  | some a => f a

def ofList (f : α → Datum) (l : List α) : Datum := .list (l.map f)

/-- An object whose names are texts, in the order given. -/
def ofMembers (l : List (String × Datum)) : Datum := .object (l.map fun m => (marks m.1, m.2))

end Datum

theorem reads_ofOption {item : Reader α} {f : α → Datum} (h : ∀ a, Reads item (f a) a)
    (present : ∀ a, f a ≠ .null) (a : Option α) : Reads (nullable item) (.ofOption f a) a := by
  cases a with
  | none => exact reads_null item
  | some a => exact reads_nullable (h a) (present a)

/-- An item or a member starts at `s`: the first right there, any other after a comma. -/
inductive Begun : Bool → List Char → List Char → Prop where
  | first {s : List Char} : Begun true s s
  | next {s s' : List Char} : Gap s (',' :: s') → Begun false s s'

theorem Begun.length_le {first : Bool} {s s' : List Char} (h : Begun first s s') :
    s'.length ≤ s.length := by
  cases h with
  | first => exact Nat.le_refl _
  | next gap => exact Nat.le_of_lt gap.length_le

/-- Less is left after a member than there was before it. -/
theorem Begun.length_lt {first : Bool} {k : List Mark} {x : Datum} {s s' s₁ s₂ s₃ s₄ s₅ : List Char}
    (begun : Begun first s s') (before : Gap s' ('"' :: s₁)) (name : Quoted k s₁ s₂)
    (between : Gap s₂ (':' :: s₃)) (between' : Gap s₃ s₄) (value : Written (.value x) s₄ s₅) :
    s₅.length < s.length := by
  have start : s'.length ≤ s.length := begun.length_le
  have quote : s₁.length < s'.length := before.length_le
  have named : s₂.length < s₁.length := name.length_lt
  have colon : s₃.length < s₂.length := between.length_le
  have gap : s₄.length ≤ s₃.length := between'.length_le
  have read : s₅.length < s₄.length := value.length_lt
  omega

theorem nextElement_begun {first : Bool} {s s' s₁ rest : List Char} {x : Datum} (h : Begun first s s')
    (gap : Gap s' s₁) (written : Written (.value x) s₁ rest) :
    nextElement first s = .ok (.item () s₁) := by
  obtain ⟨c, t, rfl, starts⟩ := written.head
  cases h with
  | first =>
    unfold nextElement
    rw [gap.skip written.atToken]
    split
    · contradiction
    · rename_i heq
      cases heq
      cases starts
    · rename_i heq
      cases heq
      cases starts
    · rfl
  | next comma =>
    unfold nextElement
    rw [comma.skip (atToken_cons rfl)]
    simp only [gap.skip written.atToken, Bool.false_eq_true, if_false]
    split
    · contradiction
    · rename_i heq
      cases heq
      cases starts
    · rfl

theorem nextElement_closed {first : Bool} {s rest : List Char} (gap : Gap s (']' :: rest)) :
    nextElement first s = .ok (.closed rest) := by
  unfold nextElement
  rw [gap.skip (atToken_cons rfl)]
  rfl

theorem elementsLoop_written {item : Reader α} {l : List Datum} {made : List α}
    (h : List.Forall₂ (Reads item) l made) {s s' rest : List Char} {fuel : Nat} {taken : List α}
    (begun : Begun taken.isEmpty s s') (written : Written (.items l) s' rest)
    (enough : s.length ≤ fuel) :
    elementsLoop item fuel taken s = .ok (taken.reverse ++ made, rest) := by
  induction h generalizing s s' fuel taken with
  | nil => cases written
  | @cons x a l made reads all ih =>
    have shorter := begun.length_le
    cases written with
    | lastItem before value after =>
      have := before.length_le
      have := value.length_lt
      have := after.length_le
      simp only [List.length_cons] at this
      obtain ⟨fuel, rfl⟩ : ∃ n, fuel = n + 2 := ⟨fuel - 2, by omega⟩
      cases all
      simp only [elementsLoop, nextElement_begun begun before value, reads .none value,
        nextElement_closed after, bind, Except.bind, List.reverse_cons]
    | item before value after more =>
      have := before.length_le
      have := value.length_lt
      obtain ⟨fuel, rfl⟩ : ∃ n, fuel = n + 1 := ⟨fuel - 1, by omega⟩
      simp only [elementsLoop, nextElement_begun begun before value, reads .none value, bind,
        Except.bind]
      have next : Begun (a :: taken).isEmpty _ _ := .next after
      rw [ih next more (by omega), List.reverse_cons, List.append_assoc, List.singleton_append]

theorem reads_elements {item : Reader α} {l : List Datum} {made : List α}
    (h : List.Forall₂ (Reads item) l made) : Reads (elements item) (.list l) made := by
  intro s s₁ rest gap written
  unfold elements
  rw [gap.skip written.atToken]
  cases written with
  | emptyList inside =>
    cases h
    simp only [elementsLoop, nextElement_closed inside, bind, Except.bind, List.reverse_nil]
  | list items => exact elementsLoop_written h .first items (Nat.le_succ _)

theorem nextName_begun {first : Bool} {s s' s₁ rest : List Char} {k : String} (h : Begun first s s')
    (gap : Gap s' ('"' :: s₁)) (name : Quoted (marks k) s₁ rest) :
    nextName first s = .ok (.item k rest) := by
  have read := string_quoted name
  cases h with
  | first =>
    unfold nextName
    rw [gap.skip (atToken_cons rfl)]
    simp only [if_true, read, Except.map]
  | next comma =>
    unfold nextName
    rw [comma.skip (atToken_cons rfl)]
    simp only [gap.skip (atToken_cons rfl), Bool.false_eq_true, if_false, read, Except.map]

theorem nextName_closed {first : Bool} {s rest : List Char} (gap : Gap s ('\x7d' :: rest)) :
    nextName first s = .ok (.closed rest) := by
  unfold nextName
  rw [gap.skip (atToken_cons rfl)]
  rfl

theorem reads_ofList {item : Reader α} {f : α → Datum} (h : ∀ a, Reads item (f a) a) (l : List α) :
    Reads (elements item) (.ofList f l) l := by
  refine reads_elements ?_
  induction l with
  | nil => exact .nil
  | cons a l ih => exact .cons (h a) ih

namespace Record

def field? (r : Record σ) (name : String) : Option (Field σ) := r.fields.find? (·.name == name)

def knows (r : Record σ) (name : String) : Bool := (r.field? name).isSome

theorem of_field? {r : Record σ} {name : String} {f : Field σ} (h : r.field? name = some f) :
    f ∈ r.fields ∧ f.name = name := by
  unfold field? at h
  have named := List.find?_some h
  exact ⟨List.mem_of_find?_eq_some h, beq_iff_eq.1 named⟩

/-- What the record makes of members: each known one changes it, any other does not. -/
def fill (r : Record σ) (change : String → σ → σ) (l : List (String × Datum)) (v : σ) : σ :=
  ((l.map Prod.fst).filter r.knows).foldl (fun v name => change name v) v

theorem get_foldl {β : Type} {change : String → σ → σ} (get : σ → β) (part : β) (name : String)
    (set : ∀ name' v, get (change name' v) = if name' = name then part else get v)
    (names : List String) (v : σ) :
    get (names.foldl (fun v name => change name v) v) = if name ∈ names then part else get v := by
  induction names generalizing v with
  | nil => simp
  | cons name' names ih =>
    rw [List.foldl_cons, ih, set]
    by_cases later : name ∈ names
    · simp [later]
    · simp [later, eq_comm]

/-- What the members make of the part that one name stands for. -/
theorem get_fill {β : Type} {r : Record σ} {change : String → σ → σ} (get : σ → β) (part : β)
    {name : String} (known : r.knows name = true)
    (set : ∀ name' v, get (change name' v) = if name' = name then part else get v)
    (l : List (String × Datum)) (v : σ) :
    get (r.fill change l v) = if name ∈ l.map Prod.fst then part else get v := by
  have own : name ∈ (l.map Prod.fst).filter r.knows ↔ name ∈ l.map Prod.fst := by simp [known]
  unfold fill
  simp only [get_foldl get part name set, own]

/-- Members that a record is read from, in any order and among others. -/
structure Fills (r : Record σ) (change : String → σ → σ) (l : List (String × Datum)) : Prop where
  once : ((l.map Prod.fst).filter r.knows).Nodup
  given : ∀ f ∈ r.fields, f.required = true → f.name ∈ l.map Prod.fst
  reads : ∀ m ∈ l, ∀ f, r.field? m.1 = some f → Reads f.read m.2 (change m.1)

variable {r : Record σ} {change : String → σ → σ}

theorem knows_of_mem {f : Field σ} (h : f ∈ r.fields) : r.knows f.name = true := by
  have found : ∃ g, r.fields.find? (·.name == f.name) = some g :=
    Option.isSome_iff_exists.1 (List.find?_isSome.2 ⟨f, h, beq_self_eq_true _⟩)
  obtain ⟨g, found⟩ := found
  simp [knows, field?, found]

/-- The loop between two members: none of the known ones to come was seen, and all that must be given
was seen or is to come. -/
structure Midway (r : Record σ) (change : String → σ → σ) (seen : List String)
    (l : List (String × Datum)) : Prop where
  once : ((l.map Prod.fst).filter r.knows).Nodup
  unseen : ∀ m ∈ l, r.knows m.1 = true → m.1 ∉ seen
  given : ∀ f ∈ r.fields, f.required = true → f.name ∈ seen ∨ f.name ∈ l.map Prod.fst
  reads : ∀ m ∈ l, ∀ f, r.field? m.1 = some f → Reads f.read m.2 (change m.1)

theorem Fills.midway {l : List (String × Datum)} (h : r.Fills change l) : r.Midway change [] l where
  once := h.once
  unseen _ _ _ := List.not_mem_nil
  given f mem required := .inr (h.given f mem required)
  reads := h.reads

theorem Midway.unknown {seen : List String} {k : String} {x : Datum} {l : List (String × Datum)}
    (h : r.Midway change seen ((k, x) :: l)) (unknown : r.field? k = none) :
    r.Midway change seen l where
  once := by simpa [knows, unknown] using h.once
  unseen m mem := h.unseen m (List.mem_cons_of_mem _ mem)
  given f mem required := by
    rcases h.given f mem required with seen | later
    · exact .inl seen
    · rcases List.mem_cons.1 later with here | later
      · have known := knows_of_mem mem
        simp only at here
        simp [knows, here, unknown] at known
      · exact .inr later
  reads m mem := h.reads m (List.mem_cons_of_mem _ mem)

theorem Midway.known {seen : List String} {k : String} {x : Datum} {l : List (String × Datum)}
    (h : r.Midway change seen ((k, x) :: l)) {f : Field σ} (known : r.field? k = some f) :
    r.Midway change (k :: seen) l := by
  have once := h.once
  simp only [List.map_cons, knows, known, Option.isSome_some, List.filter_cons_of_pos,
    List.nodup_cons, List.mem_filter, List.mem_map, not_and] at once
  exact {
    once := once.2
    unseen := fun m mem knows seen => by
      rcases List.mem_cons.1 seen with here | before
      · exact once.1 ⟨m, mem, here⟩ trivial
      · exact h.unseen m (List.mem_cons_of_mem _ mem) knows before
    given := fun f mem required => by
      rcases h.given f mem required with seen | later
      · exact .inl (List.mem_cons_of_mem _ seen)
      · rcases List.mem_cons.1 later with here | later
        · exact .inl (here ▸ List.mem_cons_self)
        · exact .inr later
    reads := fun m mem => h.reads m (List.mem_cons_of_mem _ mem) }

theorem Midway.closed {seen : List String} (h : r.Midway change seen []) :
    (r.fields.find? fun f => f.required && !seen.contains f.name) = none := by
  refine List.find?_eq_none.2 fun f mem missing => ?_
  simp only [Bool.and_eq_true, Bool.not_eq_true', List.contains_eq_mem, decide_eq_false_iff_not]
    at missing
  rcases h.given f mem missing.1 with seen | later
  · exact missing.2 seen
  · cases later

/-- A member is taken, or skipped where it is unknown. -/
theorem membersLoop_member {seen : List String} {k : String} {x : Datum} {l : List (String × Datum)}
    (h : r.Midway change seen ((k, x) :: l)) {first : Bool} {s s' s₁ s₂ s₃ s₄ s₅ : List Char}
    (begun : Begun first s s') (before : Gap s' ('"' :: s₁)) (name : Quoted (marks k) s₁ s₂)
    (between : Gap s₂ (':' :: s₃)) (between' : Gap s₃ s₄) (value : Written (.value x) s₄ s₅)
    (fuel : Nat) (v : σ) :
    ∃ seen', r.Midway change seen' l ∧ r.membersLoop (fuel + 1) first seen v s =
      r.membersLoop fuel false seen' (r.fill change [(k, x)] v) s₅ := by
  rw [membersLoop]
  simp only [nextName_begun begun before name, bind, Except.bind, colon_gap between]
  cases known : r.field? k with
  | none =>
    refine ⟨seen, h.unknown known, ?_⟩
    simp only [field?] at known
    simp [known, skip_written between' value, fill, knows, field?]
  | some f =>
    refine ⟨k :: seen, h.known known, ?_⟩
    have unseen : k ∉ seen := h.unseen (k, x) List.mem_cons_self (by simp [knows, known])
    have read := h.reads (k, x) List.mem_cons_self f known between' value
    simp only [field?] at known
    simp [known, unseen, read, fill, knows, field?]

theorem fill_cons (m : String × Datum) (l : List (String × Datum)) (v : σ) :
    r.fill change (m :: l) v = r.fill change l (r.fill change [m] v) := by
  unfold fill
  rw [← List.foldl_append, ← List.filter_append, ← List.map_append, List.singleton_append]

theorem membersLoop_written {l : List (String × Datum)} {seen : List String}
    (h : r.Midway change seen l) {first : Bool} {s s' rest : List Char} {fuel : Nat} {v : σ}
    (begun : Begun first s s')
    (written : Written (.members (l.map fun m => (marks m.1, m.2))) s' rest)
    (enough : s.length ≤ fuel) :
    r.membersLoop fuel first seen v s = .ok (r.fill change l v, rest) := by
  induction l generalizing s s' fuel seen first v with
  | nil => cases written
  | cons m l ih =>
    obtain ⟨k, x⟩ := m
    generalize written_as : (List.map _ _) = written_members at written
    cases written with
    | lastMember before name between between' value after =>
      obtain ⟨⟨rfl, rfl⟩, last⟩ := by simpa using written_as
      obtain rfl : l = [] := by simpa using last
      have shorter := begun.length_lt before name between between' value
      have closed : rest.length < _ := after.length_le
      obtain ⟨fuel, rfl⟩ : ∃ n, fuel = n + 2 := ⟨fuel - 2, by omega⟩
      obtain ⟨seen', midway, taken⟩ :=
        membersLoop_member h begun before name between between' value (fuel + 1) v
      rw [taken, membersLoop]
      simp only [nextName_closed after, bind, Except.bind, midway.closed]
    | member before name between between' value after more =>
      obtain ⟨⟨rfl, rfl⟩, rfl⟩ := by simpa using written_as
      have shorter := begun.length_lt before name between between' value
      obtain ⟨fuel, rfl⟩ : ∃ n, fuel = n + 1 := ⟨fuel - 1, by omega⟩
      obtain ⟨seen', midway, taken⟩ :=
        membersLoop_member h begun before name between between' value fuel v
      rw [taken, fill_cons (k, x) l]
      refine ih midway (.next after) more ?_
      omega

/-- A record is read from an object with its members, whatever their order and whatever else is among
them. -/
theorem reads_of_fills {l : List (String × Datum)} (h : r.Fills change l) :
    Reads r.reader (.ofMembers l) (r.fill change l r.start) := by
  intro s s₁ rest gap written
  unfold reader
  rw [gap.skip written.atToken]
  generalize written_as : Datum.ofMembers l = x at written
  cases written with
  | emptyObject inside =>
    obtain rfl : l = [] := by simpa [Datum.ofMembers] using written_as
    simp only [membersLoop, nextName_closed inside, bind, Except.bind, h.midway.closed]
    rfl
  | object members =>
    obtain rfl := Datum.object.inj written_as
    exact membersLoop_written h.midway .first members (Nat.le_succ _)
  | _ => cases written_as

end Record

theorem parse_written {read : Reader α} {x : Datum} {a : α} {t : String} (h : Reads read x a)
    (written : WrittenAs t x) : parse read t = .ok a := by
  obtain ⟨s₁, s₂, before, value, after⟩ := written
  unfold parse
  simp only [h before value, bind, Except.bind, after.skip (fun _ h => nomatch h)]
  rfl

end Clearance.Json
