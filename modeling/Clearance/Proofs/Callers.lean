import Clearance.Proofs.Counter.Progress
import Clearance.Proofs.Session

/-!
Callers that submit at the same time. Seen from the registry they are writers, each with the increments
of all its submissions for a program, since what a submission will count is settled before it is made.
A turn of theirs is a turn of such a writer, or it leaves all writers as they are.
-/
namespace Clearance
variable (answer : Question → Bool)

namespace Caller

/-- The writer of a caller, with the increments of the submissions that are left. -/
def ahead (c : Caller) : Counter.Writer :=
  { c.writer with left := c.writer.left ++ Authorizer.counted answer c.left }

/-- All that the caller will have got back in the end. -/
def expected (c : Caller) : List Receipt := c.receipts ++ c.left.map (Authorizer.receipt answer)

def write (c : Caller) (r : Counter.Registry) : Caller :=
  { c with writer := (c.writer.step r false).2 }

def evaluate (c : Caller) (x : Submission) (left : List Submission) : Caller where
  receipts := c.receipts ++ [Authorizer.receipt answer x]
  writer := { c.writer with left := (Authorizer.addition answer x).increments }
  left := left

/-- A writer that has increments of its own does not look at those of later submissions. -/
theorem ahead_step (c : Caller) (r : Counter.Registry) (writing : c.isWriting = true) :
    (c.ahead answer).step r false = ((c.writer.step r false).1, (c.write r).ahead answer) := by
  obtain ⟨receipts, ⟨added, _ | i, _ | ⟨i, left⟩⟩, rest⟩ := c
  · cases writing
  · unfold write ahead Counter.Writer.step
    dsimp only [List.cons_append]
    cases r.bump? i.key <;> rfl
  · rfl
  · rfl

theorem ahead_evaluate {c : Caller} {x : Submission} {left : List Submission}
    (waiting : c.isWriting = false) (next : c.left = x :: left) :
    (c.evaluate answer x left).ahead answer = c.ahead answer := by
  obtain ⟨-, none_left⟩ : c.writer.missed = none ∧ c.writer.left = [] := by
    simpa [isWriting] using waiting
  unfold ahead
  rw [next, none_left]
  rfl

theorem expected_evaluate {c : Caller} {x : Submission} {left : List Submission}
    (next : c.left = x :: left) : (c.evaluate answer x left).expected answer = c.expected answer := by
  unfold expected evaluate
  rw [next, List.map_cons, List.append_assoc, List.singleton_append]

/-- The turns that a caller takes at most until everything is counted. -/
def remaining (c : Caller) : Nat := (c.ahead answer).remaining + c.left.length

theorem remaining_write {c : Caller} (r : Counter.Registry) (writing : c.isWriting = true) :
    (c.write r).remaining answer < c.remaining answer := by
  have busy : ((c.ahead answer).missed.isNone && (c.ahead answer).left.isEmpty) = false := by
    obtain ⟨receipts, ⟨added, _ | i, _ | ⟨i, left⟩⟩, rest⟩ := c
    · cases writing
    all_goals rfl
  have less := (c.ahead answer).remaining_step r busy
  rw [c.ahead_step answer r writing] at less
  exact Nat.add_lt_add_right less c.left.length

theorem remaining_evaluate {c : Caller} {x : Submission} {left : List Submission}
    (waiting : c.isWriting = false) (next : c.left = x :: left) :
    (c.evaluate answer x left).remaining answer < c.remaining answer := by
  unfold remaining
  rw [ahead_evaluate answer waiting next, next]
  exact Nat.add_lt_add_left (Nat.lt_succ_self left.length) _

theorem ahead_of_isDone {answer : Question → Bool} {c : Caller} (done : c.isDone = true) :
    c.expected answer = c.receipts ∧
      ((c.ahead answer).missed.isNone && (c.ahead answer).left.isEmpty) = true := by
  obtain ⟨⟨none_missed, none_left⟩, last⟩ :
      (c.writer.missed = none ∧ c.writer.left = []) ∧ c.left = [] := by
    simpa [isDone, isWriting] using done
  unfold expected ahead
  rw [none_missed, none_left, last]
  exact ⟨List.append_nil _, rfl⟩

end Caller

namespace Callers

/-- What a turn can come to: nothing, for want of a caller with something to do, a step of the caller's
writer, or an evaluation. -/
inductive Turned (m : Callers) (j : Nat) : Callers → Prop where
  | idle (done : ∀ c, m.callers[j]? = some c → c.isDone = true) : m.Turned j m
  | write {c : Caller} (found : m.callers[j]? = some c) (writing : c.isWriting = true) :
    m.Turned j { m with
      registry := (c.writer.step m.registry false).1
      callers := m.callers.set j (c.write m.registry) }
  | evaluate {c : Caller} {x : Submission} {left : List Submission} (found : m.callers[j]? = some c)
      (waiting : c.isWriting = false) (next : c.left = x :: left) (calls : List Call)
      (events : List Event) :
    m.Turned j { m with calls, events, callers := m.callers.set j (c.evaluate answer x left) }

theorem turned_step (m : Callers) (j : Nat) :
    m.Turned answer j (m.step ⟨some (.steady answer)⟩ j) := by
  unfold step
  split
  next absent =>
    refine .idle ?_
    intro c found
    cases absent.symm.trans found
  next c found =>
    split
    next writing => exact .write found writing
    next waiting =>
      rw [Bool.not_eq_true] at waiting
      split
      next none_left =>
        refine .idle ?_
        intro c' found'
        obtain rfl : c = c' := Option.some.inj (found.symm.trans found')
        simp [Caller.isDone, waiting, none_left]
      next x left next =>
        rw [Authorizer.submit_run]
        exact .evaluate found waiting next _ _

def shared (m : Callers) : Counter.Shared where
  registry := m.registry
  writers := m.callers.map (Caller.ahead answer)
  readers := []

theorem start_shared (programs : List (List Submission)) :
    (start programs).shared answer = .start (programs.map (Authorizer.counted answer)) 0 := by
  unfold start shared Counter.Shared.start
  rw [List.map_map, List.map_map]
  rfl

variable {answer} {m m' : Callers} {j : Nat}

theorem Turned.shared (h : m.Turned answer j m') :
    m'.shared answer = m.shared answer ∨
      m'.shared answer = (m.shared answer).step (.write j) := by
  cases h with
  | idle => exact .inl rfl
  | @write c found writing =>
    have found_ahead : (m.shared answer).writers[j]? = some (c.ahead answer) := by
      unfold Callers.shared
      rw [List.getElem?_map, found]
      rfl
    have stepped : (m.shared answer).step (.write j) =
        { registry := ((c.ahead answer).step m.registry false).1
          writers := (m.callers.map (Caller.ahead answer)).set j ((c.ahead answer).step m.registry false).2
          readers := [] } := by
      simp only [Counter.Shared.step, found_ahead]
      rfl
    refine .inr ?_
    rw [stepped, c.ahead_step answer m.registry writing]
    unfold Callers.shared
    rw [List.map_set]
  | evaluate found waiting next =>
    refine .inl ?_
    unfold Callers.shared
    rw [Counter.Shared.map_set_of_eq found (Caller.ahead_evaluate answer waiting next)]

theorem Turned.expected (h : m.Turned answer j m') :
    m'.callers.map (Caller.expected answer) = m.callers.map (Caller.expected answer) := by
  cases h with
  | idle => rfl
  | write found => exact Counter.Shared.map_set_of_eq found rfl
  | evaluate found waiting next =>
    exact Counter.Shared.map_set_of_eq found (Caller.expected_evaluate answer next)

/-- Turns of callers keep what turns of writers keep, and what the callers will have got back. -/
theorem run_sound {programs : List (List Increment)} (turns : List Nat)
    (sound : (m.shared answer).Sound programs) :
    ((m.run ⟨some (.steady answer)⟩ turns).shared answer).Sound programs ∧
      (m.run ⟨some (.steady answer)⟩ turns).callers.map (Caller.expected answer) =
        m.callers.map (Caller.expected answer) := by
  unfold run
  -- an evaluation leaves the writers as they are, so the invariant of the registry is enough
  induction turns generalizing m with
  | nil => exact ⟨sound, rfl⟩
  | cons j turns ih =>
    have turned := turned_step answer m j
    have kept : ((m.step ⟨some (.steady answer)⟩ j).shared answer).Sound programs := by
      rcases turned.shared with same | written
      · rw [same]
        exact sound
      · rw [written]
        exact Counter.Shared.step_sound sound (.write j)
    obtain ⟨later, rest⟩ := ih kept
    exact ⟨later, rest.trans turned.expected⟩

theorem receipts_of_finished (finished : m.isFinished = true) :
    m.callers.map (·.receipts) = m.callers.map (Caller.expected answer) := by
  refine List.map_congr_left ?_
  intro c mem
  exact (Caller.ahead_of_isDone (List.all_eq_true.1 finished c mem)).1.symm

theorem shared_isFinished (finished : m.isFinished = true) : (m.shared answer).isFinished = true := by
  refine List.all_eq_true.2 ?_
  intro w mem
  obtain ⟨c, there, rfl⟩ := List.mem_map.1 mem
  exact (Caller.ahead_of_isDone (List.all_eq_true.1 finished c there)).2

theorem Turned.remaining (h : m.Turned answer j m') {c : Caller} (found : m.callers[j]? = some c)
    (undone : c.isDone = false) :
    (m'.callers.map (Caller.remaining answer)).sum < (m.callers.map (Caller.remaining answer)).sum := by
  cases h with
  | idle done => exact absurd ((done c found).symm.trans undone) (by decide)
  | write found' writing =>
    exact Counter.Shared.sum_set_lt found' (Caller.remaining_write answer m.registry writing)
  | evaluate found' waiting next =>
    exact Counter.Shared.sum_set_lt found' (Caller.remaining_evaluate answer waiting next)

/-- From wherever the callers have got to, they can finish. -/
theorem exists_finish (answer : Question → Bool) (m : Callers) :
    ∃ turns, (m.run ⟨some (.steady answer)⟩ turns).isFinished = true := by
  -- every turn of a caller that is not done takes one off what remains to all of them
  induction left : (m.callers.map (Caller.remaining answer)).sum using Nat.strong_induction_on
    generalizing m with
  | h n ih =>
    cases finished : m.isFinished with
    | true => exact ⟨[], finished⟩
    | false =>
      obtain ⟨c, mem, undone⟩ := List.all_eq_false.1 finished
      obtain ⟨j, found⟩ := List.mem_iff_getElem?.1 mem
      have less := (turned_step answer m j).remaining found (Bool.eq_false_iff.2 undone)
      obtain ⟨turns, done⟩ := ih _ (left ▸ less) _ rfl
      exact ⟨j :: turns, done⟩

end Callers

theorem flatten_counted (programs : List (List Submission)) :
    (programs.map (Authorizer.counted answer)).flatten = Authorizer.counted answer programs.flatten := by
  induction programs with
  | nil => rfl
  | cons program programs ih =>
    rw [List.map_cons, List.flatten_cons, ih, List.flatten_cons]
    exact List.flatMap_append.symm

theorem Callers.registry_of_finished {programs : List (List Submission)} {turns : List Nat}
    (finished : ((start programs).run ⟨some (.steady answer)⟩ turns).isFinished = true) :
    ((start programs).run ⟨some (.steady answer)⟩ turns).registry.Tallies
        (Authorizer.counted answer programs.flatten) ∧
      ((start programs).run ⟨some (.steady answer)⟩ turns).callers.map (·.receipts) =
        programs.map (·.map (Authorizer.receipt answer)) := by
  have sound_start := Counter.Shared.sound_start (programs.map (Authorizer.counted answer)) 0
  rw [← start_shared] at sound_start
  obtain ⟨sound, expected⟩ := run_sound turns sound_start
  have added := sound.added_of_finished (shared_isFinished finished)
  refine ⟨?_, ?_⟩
  · rw [← flatten_counted, ← added]
    exact sound.tallies
  · rw [receipts_of_finished finished, expected, start, List.map_map]
    rfl

/-- Whatever comes before and beside it, a submission gets back the same, and the counters agree with
what the submissions got back. Neither the order of the submissions matters to the registry, nor which
of several callers makes them, nor how their increments are interleaved; and all callers can finish. -/
theorem reconciles_session (answer : Question → Bool) :
    ∃ receipt : Submission → Receipt,
      (∀ x, (receipt x).decision.isSome = (x.decides && x.operation.isSome)) ∧
      (∀ x d, (receipt x).decision = some d → (d.allowed = true ↔ (receipt x).rejections = [])) ∧
      ∀ xs : List Submission, ∃ r : Counter.Registry, Reconciles r receipt xs ∧
        (∀ (order : List Submission) (s : Session), order.Perm xs → ∃ s',
          ((⟨some (.steady answer)⟩ : Authorizer).serveAll order).run { s with registry := {} } =
            (order.map receipt, s') ∧ s'.registry = r ∧ ∀ n, s'.collectors n = (s.collectors n).append
              (order.flatMap fun x => if x.collector = n then (receipt x).rejections else [])) ∧
        ∀ (programs : List (List Submission)) (turns : List Nat), programs.flatten.Perm xs →
          let m := (Callers.start programs).run ⟨some (.steady answer)⟩ turns
          (m.isFinished = true →
            m.callers.map (·.receipts) = programs.map (·.map receipt) ∧ m.registry = r) ∧
          ∃ more, (m.run ⟨some (.steady answer)⟩ more).isFinished = true := by
  refine ⟨Authorizer.receipt answer, ?_, ?_, ?_⟩
  · intro x
    unfold Authorizer.receipt
    cases x.decides <;> simp
  · intro x d decided
    unfold Authorizer.receipt Authorizer.addition at decided ⊢
    cases decides : x.decides with
    | false => simp [decides] at decided
    | true =>
      cases given : x.operation with
      | none => simp [decides, given] at decided
      | some o =>
        obtain rfl : (Authorizer.settled answer o x.identity x.policy).decision = d := by
          simpa [decides, given] using decided
        exact Authorizer.allowed_settled_iff answer o x.identity x.policy
  · intro xs
    have tallies := Counter.Registry.tallies_apply (Authorizer.counted answer xs)
    refine ⟨_, reconciles_of_tallies answer tallies, ?_, ?_⟩
    · intro order s perm
      obtain ⟨s', run, counted, gathered⟩ :=
        Authorizer.serveAll_run answer order { s with registry := {} }
      refine ⟨s', run, ?_, gathered⟩
      rw [counted]
      exact (Counter.Registry.tallies_apply _).eq tallies (perm.flatMap_right _)
    · intro programs turns perm m
      refine ⟨fun finished => ?_, Callers.exists_finish answer m⟩
      obtain ⟨counted, receipts⟩ := Callers.registry_of_finished answer finished
      exact ⟨receipts, counted.eq tallies (perm.flatMap_right _)⟩

/-- Two callers find the same counter missing. One of them looks at its rejections only. -/
theorem reconciles_session_both_missed :
    let o : Operation := { type := "Deploy", applications := some (some [some "a"]) }
    let x : Submission := { operation := some o, identity := none, policy := {} }
    let turns := [0, 1, 0, 1, 1, 0]
    let m := (Callers.start [[x], [{ x with decides := false }]]).run
      ⟨some (.steady fun _ => false)⟩ turns
    m.isFinished = true ∧ m.registry.total "authorization" = 2 ∧
      m.callers.map (fun c => c.receipts.map (·.decision.isSome)) = [[true], [false]] := by
  intro o x turns m
  have finished : m.isFinished = true := by decide +kernel
  obtain ⟨receipt, decided, _, all⟩ := reconciles_session fun _ => false
  obtain ⟨r, reconciles, _, concurrent⟩ := all [x, { x with decides := false }]
  obtain ⟨receipts, same⟩ := (concurrent [[x], [{ x with decides := false }]] turns (.refl _)).1 finished
  refine ⟨finished, ?_, ?_⟩
  · exact (congrArg (·.total "authorization") same).trans reconciles.evaluated
  · have whole := congrArg (List.map (List.map (·.decision.isSome))) receipts
    simpa [decided, Function.comp_def, x] using whole

end Clearance
