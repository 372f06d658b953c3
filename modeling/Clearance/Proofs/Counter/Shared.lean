import Clearance.Proofs.Counter.Reader
import Clearance.Proofs.Counter.Tally

/-!
Writers and readers of one registry, whatever the order of their turns. A writer whose look-up has
failed may find the counter made when it comes to make it, and several may have failed at once; what
is counted is nevertheless what has been added, and in the end what was to be added.
-/
namespace Clearance
namespace Counter

namespace Writer

def program (w : Writer) : List Increment := w.added ++ w.missed.toList ++ w.left

theorem program_step (w : Writer) (r : Registry) (locked : Bool) :
    (w.step r locked).2.program = w.program := by
  obtain ⟨added, _ | i, left⟩ := w
  · cases left with
    | nil => rfl
    | cons i left =>
      unfold step program
      dsimp only
      cases r.bump? i.key <;> simp
  · cases locked
    · unfold step program
      simp
    · rfl

/-- A turn adds nothing, or it adds one increment, to a counter that is there if none may be made. -/
theorem step_cases (w : Writer) (r : Registry) (locked : Bool) :
    ((w.step r locked).1 = r ∧ (w.step r locked).2.added = w.added) ∨
      ∃ i, r.Adds i.key (w.step r locked).1 ∧ (w.step r locked).2.added = w.added ++ [i] ∧
        (locked = true → i.key ∈ r.counts.keys) := by
  obtain ⟨added, _ | i, left⟩ := w
  · cases left with
    | nil => exact .inl ⟨rfl, rfl⟩
    | cons i left =>
      unfold step
      dsimp only
      cases found : r.bump? i.key with
      | none => exact .inl ⟨rfl, rfl⟩
      | some r' =>
        exact .inr ⟨i, Registry.adds_of_bump? found, rfl, fun _ => Registry.mem_keys_of_bump? found⟩
  · cases locked
    · exact .inr ⟨i, Registry.adds_insertBump r i.key, rfl, fun h => nomatch h⟩
    · exact .inl ⟨rfl, rfl⟩

/-- Without other turns in between, the steps of an increment amount to the whole of it. -/
theorem increment_alone (r : Registry) (added left : List Increment) (i : Increment) :
    ∃ steps ∈ [1, 2], (fun s : Registry × Writer => s.2.step s.1 false)^[steps]
      (r, ⟨added, none, i :: left⟩) = (r.increment i, ⟨added ++ [i], none, left⟩) := by
  unfold Registry.increment
  cases found : r.bump? i.key with
  | none =>
    refine ⟨2, by decide, ?_⟩
    simp only [Function.iterate_succ_apply, Function.iterate_zero_apply, step, found]
    rfl
  | some r' =>
    refine ⟨1, by decide, ?_⟩
    simp only [Function.iterate_succ_apply, Function.iterate_zero_apply, step, found]
    rfl

end Writer

namespace Shared

structure Sound (programs : List (List Increment)) (m : Shared) : Prop where
  programs : m.writers.map Writer.program = programs
  counters : ∀ k, m.registry.counts.get? k =
    if k ∈ m.added.map Increment.key then some ((m.added.map Increment.key).count k) else none
  readers : ∀ x ∈ m.readers, x.Consistent m.registry

variable {programs : List (List Increment)} {m : Shared}

theorem Sound.tallies (h : m.Sound programs) : m.registry.Tallies m.added := h.counters

theorem Sound.value (h : m.Sound programs) (k : Key) :
    m.registry.value k = (m.added.map Increment.key).count k := h.tallies.value k

theorem Sound.mem_keys_iff (h : m.Sound programs) (k : Key) :
    k ∈ m.registry.counts.keys ↔ ∃ i ∈ m.added, i.key = k := by
  rw [h.tallies.mem_keys_iff, List.mem_map]

theorem sound_start (programs : List (List Increment)) (readers : Nat) :
    (start programs readers).Sound programs where
  programs := by
    have same : (Writer.program ∘ fun left => { left }) = id := rfl
    unfold start
    rw [List.map_map, same, List.map_id]
  counters k := by
    have none_added : (start programs readers).added = [] := by
      unfold start added
      simp [List.flatMap_eq_nil_iff]
    rw [none_added]
    rfl
  readers x mem := by
    obtain rfl := List.eq_of_mem_replicate mem
    exact Reader.consistent_empty _

theorem exists_set_eq {α : Type} {l : List α} {j : Nat} {a : α} (found : l[j]? = some a) (b : α) :
    ∃ before after, l = before ++ a :: after ∧ l.set j b = before ++ b :: after := by
  obtain ⟨lt, rfl⟩ := List.getElem?_eq_some_iff.1 found
  obtain ⟨before, after, split, -, put⟩ := @List.exists_of_set _ j b l lt
  exact ⟨before, after, split, put⟩

theorem map_set_of_eq {α β : Type} {f : α → β} {l : List α} {j : Nat} {a b : α}
    (found : l[j]? = some a) (same : f b = f a) : (l.set j b).map f = l.map f := by
  obtain ⟨before, after, split, put⟩ := exists_set_eq found b
  rw [put, split, List.map_append, List.map_append, List.map_cons, List.map_cons, same]

theorem flatMap_set_concat {α β : Type} {f : α → List β} {l : List α} {j : Nat} {a b : α} {c : β}
    (found : l[j]? = some a) (more : f b = f a ++ [c]) :
    ((l.set j b).flatMap f).Perm (c :: l.flatMap f) := by
  obtain ⟨before, after, split, put⟩ := exists_set_eq found b
  rw [put, split, List.flatMap_append, List.flatMap_cons, more, List.flatMap_append, List.flatMap_cons,
    List.append_assoc, List.singleton_append, ← List.append_assoc, ← List.append_assoc]
  exact List.perm_middle

theorem step_write_cases (m : Shared) (j : Nat) :
    (m.step (.write j)).readers = m.readers ∧
      (m.step (.write j)).writers.map Writer.program = m.writers.map Writer.program ∧
      (((m.step (.write j)).registry = m.registry ∧ (m.step (.write j)).added = m.added) ∨
        ∃ i, m.registry.Adds i.key (m.step (.write j)).registry ∧
          (m.step (.write j)).added.Perm (i :: m.added) ∧
          (m.isLocked = true → i.key ∈ m.registry.counts.keys)) := by
  cases found : m.writers[j]? with
  | none =>
    have same : m.step (.write j) = m := by simp only [step, found]
    rw [same]
    exact ⟨rfl, rfl, .inl ⟨rfl, rfl⟩⟩
  | some w =>
    have next : m.step (.write j) =
        { m with
          registry := (w.step m.registry m.isLocked).1
          writers := m.writers.set j (w.step m.registry m.isLocked).2 } := by
      simp only [step, found]
    rw [next]
    refine ⟨rfl, map_set_of_eq found (w.program_step m.registry m.isLocked), ?_⟩
    rcases w.step_cases m.registry m.isLocked with ⟨registry, same⟩ | ⟨i, adds, more, there⟩
    · refine .inl ⟨registry, ?_⟩
      unfold added
      rw [List.flatMap_def, List.flatMap_def, map_set_of_eq found same]
    · exact .inr ⟨i, adds, flatMap_set_concat found more, there⟩

theorem Sound.modify_reader (h : m.Sound programs) (j : Nat) (f : Reader → Reader)
    (keeps : ∀ x : Reader, x.Consistent m.registry → (f x).Consistent m.registry) :
    ({ m with readers := m.readers.modify j f } : Shared).Sound programs where
  programs := h.programs
  counters := h.counters
  readers x mem := by
    obtain ⟨n, found⟩ := List.mem_iff_getElem?.1 mem
    rw [List.getElem?_modify] at found
    obtain ⟨x', found', rfl⟩ := Option.map_eq_some_iff.1 found
    have before := h.readers x' (List.mem_of_getElem? found')
    split
    · exact keeps x' before
    · exact before

theorem step_sound (h : m.Sound programs) (turn : Turn) : (m.step turn).Sound programs := by
  cases turn with
  | write j =>
    obtain ⟨readers, conserved, ⟨registry, added⟩ | ⟨i, adds, added, there⟩⟩ := m.step_write_cases j
    · exact ⟨conserved.trans h.programs, by rw [registry, added]; exact h.counters,
        by rw [registry, readers]; exact h.readers⟩
    · refine ⟨conserved.trans h.programs, ?_, ?_⟩
      · intro k
        have keys := added.map Increment.key
        rw [adds k, h.value, h.counters, keys.count_eq, List.map_cons]
        simp only [keys.mem_iff, List.map_cons, List.mem_cons]
        by_cases same : k = i.key
        · simp [same]
        · simp [same, Ne.symm same]
      · intro x mem
        rw [readers] at mem
        refine (h.readers x mem).grows adds.grows ?_
        -- in the middle of a total: the turn has added to a counter that was there
        intro reading k made
        have locked : m.isLocked = true := List.any_eq_true.2 ⟨x, mem, reading⟩
        rcases (adds.mem_keys_iff k).1 made with rfl | old
        · exact there locked
        · exact old
  | count j i => exact h.modify_reader j (·.count m.registry i) fun _ c => c.count i
  | total j name order =>
    exact h.modify_reader j (·.total m.registry name order) fun _ c => c.total name order
  | look j => exact h.modify_reader j (·.look m.registry) fun _ c => c.look

theorem run_sound (h : m.Sound programs) (turns : List Turn) : (m.run turns).Sound programs := by
  induction turns generalizing m with
  | nil => exact h
  | cons turn turns ih => exact ih (step_sound h turn)

theorem Sound.added_of_finished (h : m.Sound programs) (finished : m.isFinished) :
    m.added = programs.flatten := by
  -- the programs are conserved, and a writer that is done has nothing of its own left
  have all_added : m.writers.map Writer.program = m.writers.map Writer.added := by
    refine List.map_congr_left ?_
    intro w mem
    have done := List.all_eq_true.1 finished w mem
    rw [Bool.and_eq_true, Option.isNone_iff_eq_none, List.isEmpty_iff] at done
    unfold Writer.program
    rw [done.1, done.2, Option.toList_none, List.append_nil, List.append_nil]
  rw [← h.programs, all_added]
  exact List.flatMap_def

/-- A counter stands at the number of its increments that have been added, and only those make one.
No increment of a writer is lost, and no reader is told of less than before. When the writers are
done, a counter stands at the number of times it was to be incremented. -/
theorem counts_run (programs : List (List Increment)) (readers : Nat) (turns : List Turn) :
    let m := (start programs readers).run turns
    (∀ i, m.registry.count i = m.added.countP i.SameCounter) ∧
      (∀ k, k ∈ m.registry.counts.keys ↔ ∃ i ∈ m.added, i.key = k) ∧
      m.writers.map Writer.program = programs ∧
      (∀ x ∈ m.readers, x.answers.Pairwise fun a b => a.1 = b.1 → a.2 ≤ b.2) ∧
      (m.isFinished → ∀ i, m.registry.count i = programs.flatten.countP i.SameCounter) := by
  intro m
  have sound : m.Sound programs := run_sound (sound_start programs readers) turns
  have counted : ∀ i, m.registry.count i = m.added.countP i.SameCounter :=
    fun i => (sound.value i.key).trans (count_keys i m.added)
  refine ⟨counted, sound.mem_keys_iff, sound.programs, fun x mem => (sound.readers x mem).ordered, ?_⟩
  intro finished i
  rw [counted i, sound.added_of_finished finished]

/-- Two writers find the same counter missing, and a reader asks before and after one has made it. -/
theorem counts_run_both_missed :
    let i : Increment := ⟨"authorization", [⟨"class", "a"⟩, ⟨"success", "true"⟩]⟩
    let j : Increment := ⟨"authorization", [⟨"success", "true"⟩, ⟨"class", "a"⟩]⟩
    let turns := [.write 0, .write 1, .count 0 i, .write 1, .count 0 j, .write 0]
    let m := (start [[i], [j]] 1).run turns
    m.isFinished = true ∧ m.registry.count i = 2 := by
  intro i j turns m
  have finished : m.isFinished = true := by decide +kernel
  have counted := (counts_run [[i], [j]] 1 turns).2.2.2.2 finished i
  exact ⟨finished, counted.trans (by decide)⟩

end Shared
end Counter
end Clearance
