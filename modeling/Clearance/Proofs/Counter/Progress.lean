import Clearance.Proofs.Counter.Shared

/-!
Nobody keeps a writer waiting for ever. Totals come to an end, and no turn makes work for another, so
from wherever writers and readers have got to, the writers can finish.
-/
namespace Clearance.Counter

/-- An increment takes two turns at most, and one once its look-up has failed. -/
def Writer.remaining (w : Writer) : Nat := w.missed.toList.length + 2 * w.left.length

/-- One turn for each counter that is still to be looked at, and one for the answer. -/
def Reader.remaining (x : Reader) : Nat := (x.scan.map fun s => s.left.length + 1).getD 0

theorem Writer.remaining_step (w : Writer) (r : Registry)
    (busy : (w.missed.isNone && w.left.isEmpty) = false) :
    (w.step r false).2.remaining < w.remaining := by
  obtain ⟨added, _ | i, left⟩ := w
  · cases left with
    | nil => cases busy
    | cons i left =>
      unfold step remaining
      dsimp only
      cases r.bump? i.key with
      | none =>
        simp
        omega
      | some r' => simp
  · unfold step remaining
    simp

theorem Reader.remaining_look (x : Reader) (r : Registry) (reading : x.scan.isSome) :
    (x.look r).remaining < x.remaining := by
  obtain ⟨answers, _ | ⟨name, left, sum⟩⟩ := x
  · cases reading
  · cases left <;> simp [look, remaining]

namespace Shared

def remaining (m : Shared) : Nat :=
  (m.writers.map Writer.remaining).sum + (m.readers.map Reader.remaining).sum

theorem sum_set_lt {α : Type} {f : α → Nat} {l : List α} {j : Nat} {a b : α}
    (found : l[j]? = some a) (less : f b < f a) : ((l.set j b).map f).sum < (l.map f).sum := by
  obtain ⟨before, after, split, put⟩ := exists_set_eq found b
  rw [put, split]
  simp only [List.map_append, List.map_cons, List.sum_append, List.sum_cons]
  omega

theorem modify_eq_set {α : Type} {l : List α} {j : Nat} {a : α} (f : α → α)
    (found : l[j]? = some a) : l.modify j f = l.set j (f a) := by
  rw [List.modify_eq_set_getElem?, found]
  rfl

/-- While a total is being read its reader can go on, and otherwise every writer can. -/
theorem exists_progress (m : Shared) (unfinished : m.isFinished = false) :
    ∃ turn, (m.step turn).remaining < m.remaining := by
  cases locked : m.isLocked with
  | true =>
    obtain ⟨x, mem, reading⟩ := List.any_eq_true.1 locked
    obtain ⟨j, found⟩ := List.mem_iff_getElem?.1 mem
    refine ⟨.look j, ?_⟩
    have less := x.remaining_look m.registry reading
    unfold remaining step
    dsimp only
    rw [modify_eq_set _ found]
    exact Nat.add_lt_add_left (sum_set_lt found less) _
  | false =>
    obtain ⟨w, mem, busy⟩ := List.all_eq_false.1 unfinished
    obtain ⟨j, found⟩ := List.mem_iff_getElem?.1 mem
    refine ⟨.write j, ?_⟩
    have less := w.remaining_step m.registry (Bool.eq_false_iff.2 busy)
    simp only [remaining, step, found, locked]
    exact Nat.add_lt_add_right (sum_set_lt found less) _

theorem exists_finish (m : Shared) : ∃ turns, (m.run turns).isFinished = true := by
  induction left : m.remaining using Nat.strong_induction_on generalizing m with
  | h n ih =>
    cases finished : m.isFinished with
    | true => exact ⟨[], finished⟩
    | false =>
      obtain ⟨turn, less⟩ := m.exists_progress finished
      obtain ⟨turns, done⟩ := ih _ (left ▸ less) (m.step turn) rfl
      exact ⟨turn :: turns, done⟩

/-- Whatever the turns so far, others can follow after which everything is counted. -/
theorem exists_counted (programs : List (List Increment)) (readers : Nat) (turns : List Turn) :
    ∃ more, ∀ i, ((start programs readers).run (turns ++ more)).registry.count i =
      programs.flatten.countP i.SameCounter := by
  obtain ⟨more, finished⟩ := ((start programs readers).run turns).exists_finish
  have whole : ((start programs readers).run turns).run more =
      (start programs readers).run (turns ++ more) := List.foldl_append.symm
  rw [whole] at finished
  have sound := run_sound (sound_start programs readers) (turns ++ more)
  refine ⟨more, ?_⟩
  intro i
  rw [← sound.added_of_finished finished]
  exact (sound.value i.key).trans (count_keys i _)

end Shared
end Clearance.Counter
