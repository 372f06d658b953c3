import Clearance.Proofs.Json.Taking

/-!
Records that stand as lists. A list is taken as a record exactly if it has no more items than there are
fields, and the object is taken that has the same values under the names of the fields in their order.
What is read is the same too.
-/
namespace Clearance.Json.Record

variable {σ : Type} {r : Record σ} {change : String → σ → σ}

def names (r : Record σ) : List String := r.fields.map Field.name

/-- No two fields have one name, and those that must be given come first. -/
structure Ordered (r : Record σ) : Prop where
  distinct : r.names.Nodup
  requiredFirst : r.fields.Pairwise fun f g => g.required = true → f.required = true

theorem Ordered.field? (ordered : r.Ordered) {f : Field σ} (h : f ∈ r.fields) :
    r.field? f.name = some f := by
  obtain ⟨g, found⟩ := Option.isSome_iff_exists.1 (knows_of_mem h)
  obtain ⟨mem, same⟩ := of_field? found
  have one : g = f := List.inj_on_of_nodup_map ordered.distinct mem h same
  rw [found, one]

theorem zip_names (l : List Datum) :
    r.names.zip l = (r.fields.zip l).map fun p => (p.1.name, p.2) := List.zip_map_left

theorem map_fst_zip (names : List String) (l : List Datum) :
    (names.zip l).map Prod.fst = names.take l.length := by
  induction names generalizing l with
  | nil => simp
  | cons name names ih => cases l <;> simp [ih]

/-! ### From a list to what is read -/

theorem positions_closed {fs : List (Field σ)} {first : Bool} {v : σ} {s rest : List Char}
    (gap : Gap s (']' :: rest)) (optional : ∀ f ∈ fs.head?, f.required = false) :
    r.positions first fs v s = .ok (v, rest) := by
  cases fs with
  | nil =>
    have ended : endOfList s = .ok rest := by
      unfold endOfList
      rw [gap.skip (atToken_cons rfl)]
      rfl
    simp only [positions, ended, bind, Except.bind]
  | cons f fs =>
    have free := optional f rfl
    simp only [positions, nextElement_closed gap, bind, Except.bind, free, Bool.false_eq_true, if_false]

theorem positions_read {f : Field σ} {fs : List (Field σ)} {x : Datum} {one : σ → σ}
    (reads : Reads f.read x one) {first : Bool} {s s' s₁ s₂ : List Char} (begun : Begun first s s')
    (before : Gap s' s₁) (value : Written (.value x) s₁ s₂) (v : σ) :
    r.positions first (f :: fs) v s = r.positions false fs (one v) s₂ := by
  have read := reads .none value
  simp only [positions, nextElement_begun begun before value, read, bind, Except.bind]

theorem positions_written {fs : List (Field σ)} {l : List Datum} (short : l.length ≤ fs.length)
    (optional : ∀ f ∈ (fs.drop l.length).head?, f.required = false)
    (reads : ∀ p ∈ fs.zip l, Reads p.1.read p.2 (change p.1.name)) {first : Bool} {v : σ}
    {s s' rest : List Char} (begun : Begun first s s') (written : Written (.items l) s' rest) :
    r.positions first fs v s =
      .ok (((fs.map Field.name).take l.length).foldl (fun v name => change name v) v, rest) := by
  induction l generalizing fs first v s s' with
  | nil => cases written
  | cons x l ih =>
    cases fs with
    | nil => cases short
    | cons f fs =>
      have parts : ∀ p ∈ (f, x) :: fs.zip l, Reads p.1.read p.2 (change p.1.name) := reads
      obtain ⟨here, later⟩ := List.forall_mem_cons.1 parts
      cases written with
      | lastItem before value after =>
        rw [positions_read here begun before value]
        exact positions_closed after optional
      | item before value after more =>
        rw [positions_read here begun before value]
        exact ih (Nat.le_of_succ_le_succ short) optional later (.next after) more

/-! ### From what is read to the list -/

/-- Items that stand where the fields have their places. -/
structure Placed (fs : List (Field σ)) (l : List Datum) : Prop where
  short : l.length ≤ fs.length
  optional : ∀ f ∈ (fs.drop l.length).head?, f.required = false
  takes : ∀ p ∈ fs.zip l, Takes p.1.read p.2

theorem Placed.cons {f : Field σ} {fs : List (Field σ)} {x : Datum} {l : List Datum}
    (h : Placed fs l) (takes : Takes f.read x) : Placed (f :: fs) (x :: l) where
  short := Nat.succ_le_succ h.short
  optional := h.optional
  takes := List.forall_mem_cons.2 ⟨takes, h.takes⟩

theorem placed_nil {fs : List (Field σ)} {first : Bool} {v : σ} {s rest : List Char}
    (gap : Gap s (']' :: rest)) {made : σ × List Char} (read : r.positions first fs v s = .ok made) :
    Placed fs [] where
  short := Nat.zero_le _
  optional := by
    cases fs with
    | nil => exact nofun
    | cons f fs =>
      simp only [positions, nextElement_closed gap, bind, Except.bind] at read
      split at read
      · cases read
      · rename_i free
        intro g found
        obtain rfl := Option.some.inj found
        exact Bool.eq_false_iff.2 free
  takes := by simp

/-- What an item tells that was read, and how the reader goes on after it. -/
theorem positions_taken {f : Field σ} {fs : List (Field σ)} {x : Datum} (strict : Strict f.read)
    {first : Bool} {v : σ} {s s' s₁ s₂ : List Char} (begun : Begun first s s') (before : Gap s' s₁)
    (value : Written (.value x) s₁ s₂) {made : σ × List Char}
    (read : r.positions first (f :: fs) v s = .ok made) :
    Takes f.read x ∧ ∃ v, r.positions false fs v s₂ = .ok made := by
  simp only [positions, nextElement_begun begun before value] at read
  obtain ⟨next, item, read⟩ := bind_ok read
  cases item
  obtain ⟨one, here, read⟩ := bind_ok read
  obtain rfl := strict.rest .none value here
  exact ⟨⟨s₁, s₁, _, one, .none, value, here⟩, one.1 v, read⟩

/-- There is no place left. -/
theorem positions_nil {first : Bool} {v : σ} {s s' s₁ s₂ : List Char} {x : Datum}
    (begun : Begun first s s') (before : Gap s' s₁) (value : Written (.value x) s₁ s₂)
    {made : σ × List Char} : r.positions first [] v s ≠ .ok made := by
  intro read
  obtain ⟨rest, ended, -⟩ := bind_ok read
  have item := nextElement_begun begun before value
  rw [nextElement_closed (gap_of_endOfList ended)] at item
  cases item

theorem placed_of_positions {fs : List (Field σ)} {l : List Datum}
    (strict : ∀ f ∈ fs, Strict f.read) {first : Bool} {v : σ} {s s' rest : List Char}
    (begun : Begun first s s') (written : Written (.items l) s' rest) {made : σ × List Char}
    (read : r.positions first fs v s = .ok made) : Placed fs l := by
  induction l generalizing fs first v s s' with
  | nil => cases written
  | cons x l ih =>
    cases fs with
    | nil =>
      cases written with
      | lastItem before value _ => exact absurd read (positions_nil begun before value)
      | item before value _ _ => exact absurd read (positions_nil begun before value)
    | cons f fs =>
      obtain ⟨here, later⟩ := List.forall_mem_cons.1 strict
      cases written with
      | lastItem before value after =>
        obtain ⟨takes, v, read⟩ := positions_taken here begun before value read
        exact (placed_nil after read).cons takes
      | item before value after more =>
        obtain ⟨takes, v, read⟩ := positions_taken here begun before value read
        exact (ih later (.next after) more read).cons takes

/-! ### Lists and objects -/

/-- A field that must be given has a place in each list that leaves out none but the others. -/
theorem Ordered.given (ordered : r.Ordered) {l : List Datum} :
    (∀ f ∈ (r.fields.drop l.length).head?, f.required = false) ↔
      ∀ f ∈ r.fields, f.required = true → f.name ∈ (r.names.zip l).map Prod.fst := by
  rw [map_fst_zip]
  have placed : r.names.take l.length = (r.fields.take l.length).map Field.name := List.map_take.symm
  have left : r.names.drop l.length = (r.fields.drop l.length).map Field.name := List.map_drop.symm
  constructor
  · intro optional f mem required
    have split : f ∈ r.fields.take l.length ++ r.fields.drop l.length := by
      rwa [List.take_append_drop]
    rcases List.mem_append.1 split with here | later
    · exact placed ▸ List.mem_map_of_mem here
    · have chain := ordered.requiredFirst.sublist (List.drop_sublist l.length _)
      cases rest : r.fields.drop l.length with
      | nil =>
        rw [rest] at later
        cases later
      | cons g fs =>
        rw [rest] at optional later chain
        have free : g.required = false := optional g rfl
        have first : g.required = true := by
          rcases List.mem_cons.1 later with rfl | later
          · exact required
          · exact (List.pairwise_cons.1 chain).1 f later required
        cases free.symm.trans first
  · intro given f head
    have later := List.mem_of_mem_head? head
    by_contra required
    have here := given f (List.mem_of_mem_drop later) (by simpa using required)
    exact List.disjoint_take_drop ordered.distinct (Nat.le_refl _) here
      (left ▸ List.mem_map_of_mem later)

/-- A list is read as the object is. -/
theorem reads_list (ordered : r.Ordered) {l : List Datum} (short : l.length ≤ r.fields.length)
    (h : r.Fills change (r.names.zip l)) :
    Reads r.reader (.list l) (r.fill change (r.names.zip l) r.start) := by
  have optional := ordered.given.2 h.given
  have reads : ∀ p ∈ r.fields.zip l, Reads p.1.read p.2 (change p.1.name) := by
    intro p mem
    have named : (p.1.name, p.2) ∈ r.names.zip l := zip_names l ▸ List.mem_map_of_mem mem
    exact h.reads _ named p.1 (ordered.field? (List.of_mem_zip mem).1)
  have filled : r.fill change (r.names.zip l) r.start =
      (r.names.take l.length).foldl (fun v name => change name v) r.start := by
    have known : ∀ name ∈ r.names.take l.length, r.knows name = true := by
      intro name mem
      obtain ⟨f, field, rfl⟩ := List.mem_map.1 (List.mem_of_mem_take mem)
      exact knows_of_mem field
    unfold fill
    rw [map_fst_zip, List.filter_eq_self.2 known]
  intro s s₁ rest gap written
  unfold reader
  rw [gap.skip written.atToken, filled]
  cases written with
  | emptyList inside => exact positions_closed inside optional
  | list items => exact positions_written short optional reads .first items

/-- A list that is taken as a record stands for an object that has what the record needs. -/
theorem takes_list (ordered : r.Ordered) {l : List Datum} (h : Takes r.reader (.list l))
    (strict : ∀ f ∈ r.fields, Strict f.read) :
    l.length ≤ r.fields.length ∧ r.Fits (r.names.zip l) := by
  have named {p : Field σ × Datum} (mem : p ∈ r.fields.zip l) :
      (p.1.name, p.2) ∈ r.names.zip l ∧ r.field? p.1.name = some p.1 :=
    ⟨zip_names l ▸ List.mem_map_of_mem mem, ordered.field? (List.of_mem_zip mem).1⟩
  obtain ⟨s, s₁, rest, made, gap, written, read⟩ := h
  unfold reader at read
  rw [gap.skip written.atToken] at read
  have placed : Placed r.fields l := by
    cases written with
    | emptyList inside => exact placed_nil inside read
    | list items => exact placed_of_positions strict .first items read
  refine ⟨placed.short, ?_, ordered.given.1 placed.optional, ?_⟩
  · rw [map_fst_zip]
    exact (ordered.distinct.sublist (List.take_sublist ..)).filter _
  · intro m mem f known
    rw [zip_names] at mem
    obtain ⟨p, place, rfl⟩ := List.mem_map.1 mem
    obtain rfl := Option.some.inj ((named place).2.symm.trans known)
    exact placed.takes p place

end Clearance.Json.Record
