import Clearance.Proofs.Json.Taking

/-!
Maps. An object is read as a map if each of its members is, in the order of the text and those that have
a name in common included.
-/
namespace Clearance.Json

variable {α : Type} {item : Reader α}

/-- What the reader makes of a member, under the member's name. -/
def ReadsEntry (item : Reader α) (m : String × Datum) (e : String × α) : Prop :=
  m.1 = e.1 ∧ Reads item m.2 e.2

theorem entriesLoop_written {l : List (String × Datum)} {made : List (String × α)}
    (h : List.Forall₂ (ReadsEntry item) l made) {s s' rest : List Char} {fuel : Nat}
    {taken : List (String × α)} (begun : Begun taken.isEmpty s s')
    (written : Written (.members (l.map fun m => (marks m.1, m.2))) s' rest)
    (enough : s.length ≤ fuel) :
    entriesLoop item fuel taken s = .ok (taken.reverse ++ made, rest) := by
  induction h generalizing s s' fuel taken with
  | nil => cases written
  | @cons m e l made entry all ih =>
    obtain ⟨k, x⟩ := m
    obtain ⟨k', a⟩ := e
    obtain ⟨rfl, reads⟩ := entry
    generalize written_as : (List.map _ _) = written_members at written
    cases written with
    | lastMember before name between between' value after =>
      obtain ⟨⟨rfl, rfl⟩, last⟩ := by simpa using written_as
      obtain rfl : l = [] := by simpa using last
      have shorter := begun.length_lt before name between between' value
      have closed : rest.length < _ := after.length_le
      obtain ⟨fuel, rfl⟩ : ∃ n, fuel = n + 2 := ⟨fuel - 2, by omega⟩
      cases all
      simp only [entriesLoop, nextName_begun begun before name, colon_gap between, reads between' value,
        nextName_closed after, bind, Except.bind, List.reverse_cons]
    | member before name between between' value after more =>
      obtain ⟨⟨rfl, rfl⟩, rfl⟩ := by simpa using written_as
      have shorter := begun.length_lt before name between between' value
      obtain ⟨fuel, rfl⟩ : ∃ n, fuel = n + 1 := ⟨fuel - 1, by omega⟩
      simp only [entriesLoop, nextName_begun begun before name, colon_gap between, reads between' value,
        bind, Except.bind]
      have next : Begun ((k, a) :: taken).isEmpty _ _ := .next after
      rw [ih next more (by omega), List.reverse_cons, List.append_assoc, List.singleton_append]

theorem reads_entries {l : List (String × Datum)} {made : List (String × α)}
    (h : List.Forall₂ (ReadsEntry item) l made) : Reads (entries item) (.ofMembers l) made := by
  intro s s₁ rest gap written
  unfold entries
  rw [gap.skip written.atToken]
  generalize written_as : Datum.ofMembers l = x at written
  cases written with
  | emptyObject inside =>
    obtain rfl : l = [] := by simpa [Datum.ofMembers] using written_as
    cases h
    simp only [entriesLoop, nextName_closed inside, bind, Except.bind, List.reverse_nil]
  | object members =>
    obtain rfl := Datum.object.inj written_as
    have begun (s : List Char) : Begun ([] : List (String × α)).isEmpty s s := .first
    exact entriesLoop_written h (begun _) members (Nat.le_succ _)
  | _ => cases written_as

/-- A member that was read is taken, and the loop goes on after it. -/
theorem entriesLoop_taken {k : String} {x : Datum} (strict : Strict item) {fuel : Nat}
    {taken : List (String × α)} {s s' s₁ s₂ s₃ s₄ s₅ : List Char} (begun : Begun taken.isEmpty s s')
    (before : Gap s' ('"' :: s₁)) (name : Quoted (marks k) s₁ s₂) (between : Gap s₂ (':' :: s₃))
    (between' : Gap s₃ s₄) (value : Written (.value x) s₄ s₅) {made : List (String × α) × List Char}
    (read : entriesLoop item fuel taken s = .ok made) :
    Takes item x ∧ ∃ fuel e, entriesLoop item fuel (e :: taken) s₅ = .ok made := by
  cases fuel with
  | zero => cases read
  | succ fuel =>
    simp only [entriesLoop, nextName_begun begun before name, colon_gap between, bind,
      Except.bind] at read
    cases here : item s₃ with
    | error fault =>
      rw [here] at read
      cases read
    | ok one =>
      rw [here] at read
      obtain rfl := strict.rest between' value here
      exact ⟨⟨s₃, s₄, _, one, between', value, here⟩, fuel, (k, one.1), read⟩

theorem takes_members {l : List (String × Datum)} (strict : Strict item)
    {s s' rest : List Char} {fuel : Nat} {taken : List (String × α)}
    {made : List (String × α) × List Char} (begun : Begun taken.isEmpty s s')
    (written : Written (.members (l.map fun m => (marks m.1, m.2))) s' rest)
    (read : entriesLoop item fuel taken s = .ok made) : ∀ m ∈ l, Takes item m.2 := by
  induction l generalizing s s' fuel taken with
  | nil => exact nofun
  | cons m l ih =>
    obtain ⟨k, x⟩ := m
    generalize written_as : (List.map _ _) = written_members at written
    cases written with
    | lastMember before name between between' value _ =>
      obtain ⟨⟨rfl, rfl⟩, last⟩ := by simpa using written_as
      obtain rfl : l = [] := by simpa using last
      obtain ⟨here, -⟩ := entriesLoop_taken strict begun before name between between' value read
      exact List.forall_mem_singleton.2 here
    | member before name between between' value after more =>
      obtain ⟨⟨rfl, rfl⟩, rfl⟩ := by simpa using written_as
      obtain ⟨here, fuel, e, read⟩ :=
        entriesLoop_taken strict begun before name between between' value read
      have next : Begun (e :: taken).isEmpty _ _ := .next after
      exact List.forall_mem_cons.2 ⟨here, ih next more read⟩

theorem takes_entries {x : Datum} (h : Takes (entries item) x) (whole : x.Whole)
    (strict : Strict item) :
    ∃ l, x = .ofMembers l ∧ ∀ m ∈ l, Takes item m.2 := by
  obtain ⟨s, s₁, rest, made, gap, written, read⟩ := h
  unfold entries at read
  rw [gap.skip written.atToken] at read
  split at read
  · obtain ⟨l', rfl⟩ := written.object_of_head
    obtain ⟨l, members, -⟩ := whole.members
    refine ⟨l, members, ?_⟩
    obtain rfl := Datum.object.inj members
    generalize written_as : (List.map _ _) = written_members at written
    cases written with
    | emptyObject _ =>
      obtain rfl : l = [] := by simpa using written_as
      exact nofun
    | object more =>
      subst written_as
      have begun (s : List Char) : Begun ([] : List (String × α)).isEmpty s s := .first
      exact takes_members strict (begun _) more read
  · cases read

end Clearance.Json
