import Clearance.Proofs.Authorizer.Counting
import Clearance.Proofs.Authorizer.Steady
import Clearance.Proofs.Counter.Tally
import Clearance.Session

/-!
Sessions with a backend whose answers depend on nothing but the question. What a submission gets back and
what it counts depend on the submission alone, so that the counters of a session can be read off its
submissions.
-/
namespace Clearance

def Submission.OfType (x : Submission) (type : String) : Prop := ∃ o ∈ x.operation, o.type = type

def Submission.Waived (x : Submission) : Prop := ∃ o ∈ x.operation, o.Waived x.policy

instance (x : Submission) (type : String) : Decidable (x.OfType type) :=
  inferInstanceAs (Decidable (∃ o ∈ x.operation, o.type = type))

instance (x : Submission) : Decidable x.Waived :=
  inferInstanceAs (Decidable (∃ o ∈ x.operation, o.Waived x.policy))

/-- What a submission may count: the outcome if there is an operation, and before it a waiver or a missing
application. -/
inductive Submission.Counts (x : Submission) (allowed : Bool) : List Increment → Prop where
  | nothing (given : x.operation = none) : x.Counts allowed []
  | waived {o : Operation} (given : x.operation = some o) (waived : o.Waived x.policy) :
    x.Counts allowed [Authorizer.skippedCount o.type (o.scope.bind (·.account)),
      Authorizer.outcomeCount o.type allowed]
  | subject {o : Operation} (given : x.operation = some o) (checked : ¬ o.Waived x.policy) :
    x.Counts allowed [Authorizer.outcomeCount o.type allowed]
  | missing {o : Operation} (given : x.operation = some o) (checked : ¬ o.Waived x.policy)
      (account : String) :
    x.Counts allowed [Authorizer.missingCount o.type account, Authorizer.outcomeCount o.type allowed]

/-- The counters agree with the submissions and what they got back: each operation is counted once, with
its type and outcome, each waiver once, and no more than one of a waiver and a missing application for
an operation. -/
structure Reconciles (r : Counter.Registry) (receipt : Submission → Receipt) (xs : List Submission) :
    Prop where
  evaluated : r.total "authorization" = xs.countP (·.operation.isSome)
  denied : ∀ type, r.count ⟨"authorization", [⟨"descriptionClass", type⟩, ⟨"success", "false"⟩]⟩ =
    xs.countP fun x => x.OfType type ∧ (receipt x).rejections ≠ []
  allowed : ∀ type, r.count ⟨"authorization", [⟨"descriptionClass", type⟩, ⟨"success", "true"⟩]⟩ =
    xs.countP fun x => x.OfType type ∧ (receipt x).rejections = []
  waived : r.total "authorization.skipped" = xs.countP fun x => x.Waived
  bounded : r.total "authorization.skipped" + r.total "authorization.missingApplication" ≤
    r.total "authorization"

namespace Authorizer
variable (answer : Question → Bool)

theorem allowed_settled_iff (o : Operation) (identity : Option Identity) (p : Policy) :
    (settled answer o identity p).decision.allowed = true ↔
      (settled answer o identity p).rejections = [] := by
  have summary := summary_allowed_iff (.steady answer) o identity p []
  rwa [summaryDecision_steady, summaryTrail_steady] at summary

theorem sameCounter_outcome (type type' : String) (allowed allowed' : Bool) :
    (outcomeCount type allowed).SameCounter (outcomeCount type' allowed') ↔
      type' = type ∧ allowed' = allowed := by
  refine (sameCounter_labelled_iff (by decide)).trans ?_
  cases allowed <;> cases allowed' <;> simp [eq_comm]

def addition (x : Submission) : Trail :=
  match x.operation with
  | none => {}
  | some o => (settled answer o x.identity x.policy).trail

def receipt (x : Submission) : Receipt where
  decision := if x.decides then
      x.operation.map fun o => (settled answer o x.identity x.policy).decision
    else none
  rejections := (addition answer x).collector.rejections

def counted (xs : List Submission) : List Increment :=
  xs.flatMap fun x => (addition answer x).increments

theorem counts_addition (x : Submission) :
    x.Counts (receipt answer x).rejections.isEmpty (addition answer x).increments := by
  cases given : x.operation with
  | none =>
    unfold addition
    rw [given]
    exact .nothing given
  | some o =>
    let e := settled answer o x.identity x.policy
    have outcome : (receipt answer x).rejections.isEmpty = e.decision.allowed := by
      rw [Bool.eq_iff_iff, List.isEmpty_iff]
      unfold receipt addition
      rw [given]
      exact (allowed_settled_iff answer o x.identity x.policy).symm
    have added : (addition answer x).increments = e.increments := by
      unfold addition
      rw [given]
      rfl
    rw [outcome, added]
    cases waived : o.isWaived x.policy with
    | true =>
      rw [increments_of_isWaived answer x.identity waived]
      exact .waived given ((o.isWaived_iff _).1 waived)
    | false =>
      have checked : ¬ o.Waived x.policy := by
        rwa [← o.isWaived_iff, Bool.not_eq_true]
      rw [increments_of_not_isWaived answer x.identity waived]
      rcases lonely_cases o (o.checkedAccount x.policy) with none | ⟨account, one⟩
      · rw [none]
        exact .subject given checked
      · rw [one]
        exact .missing given checked account

theorem evaluate_submission_run (x : Submission) (s : Trail) :
    ((⟨some (.steady answer)⟩ : Authorizer).evaluate x.operation x.identity x.policy).run s =
      (x.operation.map fun o => (settled answer o x.identity x.policy).decision,
        s ++ addition answer x) := by
  unfold addition
  cases x.operation with
  | none => exact congrArg (Prod.mk none) s.append_empty.symm
  | some o => exact yields_settled answer o x.identity x.policy s

theorem submit_run (x : Submission) (s : Trail) :
    ((⟨some (.steady answer)⟩ : Authorizer).submit x).run s =
      ((receipt answer x).decision, s ++ addition answer x) := by
  have evaluated := evaluate_submission_run answer x s
  unfold submit receipt
  cases x.decides with
  | true => exact evaluated
  | false => exact congrArg (Prod.mk none) (congrArg Prod.snd evaluated)

theorem serve_run (x : Submission) (s : Session) :
    ∃ s', ((⟨some (.steady answer)⟩ : Authorizer).serve x).run s = (receipt answer x, s') ∧
      s'.registry = s.registry.apply (addition answer x).increments ∧
      ∀ n, s'.collectors n = (s.collectors n).append
        (if x.collector = n then (receipt answer x).rejections else []) := by
  let before : Trail :=
    { collector := s.collectors x.collector, calls := s.calls, events := s.events }
  let after := before ++ addition answer x
  let s' : Session :=
    { registry := s.registry.apply after.increments
      collectors := fun n => if n = x.collector then after.collector else s.collectors n
      calls := after.calls
      events := after.events }
  have served : ((⟨some (.steady answer)⟩ : Authorizer).serve x).run s = (receipt answer x, s') := by
    have submitted := submit_run answer x before
    simp only [serve, StateT.run] at submitted ⊢
    rw [submitted]
    exact Prod.ext (congrArg (Receipt.mk _) List.drop_left) rfl
  refine ⟨s', served, rfl, ?_⟩
  intro n
  by_cases here : n = x.collector
  · subst here
    rw [if_pos rfl]
    exact if_pos rfl
  · rw [if_neg (Ne.symm here)]
    exact (if_neg here).trans (congrArg Collector.mk (List.append_nil _).symm)

theorem serveAll_run (xs : List Submission) (s : Session) :
    ∃ s', ((⟨some (.steady answer)⟩ : Authorizer).serveAll xs).run s = (xs.map (receipt answer), s') ∧
      s'.registry = s.registry.apply (counted answer xs) ∧
      ∀ n, s'.collectors n = (s.collectors n).append
        (xs.flatMap fun x => if x.collector = n then (receipt answer x).rejections else []) := by
  unfold serveAll counted
  induction xs generalizing s with
  | nil => exact ⟨s, rfl, rfl, fun n => congrArg Collector.mk (List.append_nil _).symm⟩
  | cons x xs ih =>
    obtain ⟨s', first, added, gathered⟩ := serve_run answer x s
    obtain ⟨s'', rest, more, later⟩ := ih s'
    refine ⟨s'', ?_, ?_, ?_⟩
    · rw [List.mapM_cons, StateT.run_bind, first]
      change ((_ >>= _ : StateM Session _).run s') = _
      rw [StateT.run_bind, rest]
      rfl
    · rw [more, added, List.flatMap_cons]
      exact List.foldl_append.symm
    · intro n
      rw [later, gathered, List.flatMap_cons]
      exact congrArg Collector.mk (List.append_assoc ..)

end Authorizer

namespace Submission.Counts
variable {x : Submission} {allowed : Bool} {is : List Increment}

theorem count_outcomes (h : x.Counts allowed is) :
    is.countP (·.name == "authorization") = if x.operation.isSome then 1 else 0 := by
  cases h <;> simp [*, Authorizer.skippedCount, Authorizer.missingCount, Authorizer.outcomeCount]

theorem count_waivers (h : x.Counts allowed is) :
    is.countP (·.name == "authorization.skipped") = if x.Waived then 1 else 0 := by
  unfold Waived
  cases h <;> simp [*, Authorizer.skippedCount, Authorizer.missingCount, Authorizer.outcomeCount]

theorem count_bounded (h : x.Counts allowed is) :
    is.countP (·.name == "authorization.skipped") +
      is.countP (·.name == "authorization.missingApplication") ≤
        is.countP (·.name == "authorization") := by
  cases h <;> simp [Authorizer.skippedCount, Authorizer.missingCount, Authorizer.outcomeCount]

theorem count_outcome (h : x.Counts allowed is) (type : String) (allowed' : Bool) :
    is.countP (Authorizer.outcomeCount type allowed').SameCounter =
      if x.OfType type ∧ allowed = allowed' then 1 else 0 := by
  have skipped : ∀ type' account, ¬ (Authorizer.outcomeCount type allowed').SameCounter
      (Authorizer.skippedCount type' account) := by
    rintro type' account ⟨names, -⟩
    simp [Authorizer.outcomeCount, Authorizer.skippedCount] at names
  have missing : ∀ type' account, ¬ (Authorizer.outcomeCount type allowed').SameCounter
      (Authorizer.missingCount type' account) := by
    rintro type' account ⟨names, -⟩
    simp [Authorizer.outcomeCount, Authorizer.missingCount] at names
  unfold OfType
  cases h <;> simp [*, List.countP_cons, Authorizer.sameCounter_outcome]

end Submission.Counts

theorem countP_counted (answer : Question → Bool) {p : Increment → Bool} {q : Submission → Prop}
    [DecidablePred q]
    (each : ∀ x, (Authorizer.addition answer x).increments.countP p = if q x then 1 else 0)
    (xs : List Submission) : (Authorizer.counted answer xs).countP p = xs.countP q := by
  unfold Authorizer.counted
  induction xs with
  | nil => rfl
  | cons x xs ih =>
    rw [List.flatMap_cons, List.countP_append, List.countP_cons, ih, each, Nat.add_comm]
    simp only [decide_eq_true_eq]

theorem counted_bounded (answer : Question → Bool) (xs : List Submission) :
    (Authorizer.counted answer xs).countP (·.name == "authorization.skipped") +
      (Authorizer.counted answer xs).countP (·.name == "authorization.missingApplication") ≤
        (Authorizer.counted answer xs).countP (·.name == "authorization") := by
  unfold Authorizer.counted
  induction xs with
  | nil => exact Nat.le_refl _
  | cons x xs ih =>
    have first := (Authorizer.counts_addition answer x).count_bounded
    simp only [List.flatMap_cons, List.countP_append]
    omega

theorem reconciles_of_tallies (answer : Question → Bool) {r : Counter.Registry} {xs : List Submission}
    (h : r.Tallies (Authorizer.counted answer xs)) :
    Reconciles r (Authorizer.receipt answer) xs where
  evaluated := by
    rw [h.total, countP_counted answer fun x => (Authorizer.counts_addition answer x).count_outcomes]
    simp
  denied type := by
    refine (h.count _).trans (countP_counted answer (fun x => ?_) xs)
    exact ((Authorizer.counts_addition answer x).count_outcome type false).trans
      (if_congr (and_congr_right fun _ => List.isEmpty_eq_false_iff) rfl rfl)
  allowed type := by
    refine (h.count _).trans (countP_counted answer (fun x => ?_) xs)
    exact ((Authorizer.counts_addition answer x).count_outcome type true).trans
      (if_congr (and_congr_right fun _ => List.isEmpty_iff) rfl rfl)
  waived := by
    rw [h.total, countP_counted answer fun x => (Authorizer.counts_addition answer x).count_waivers]
  bounded := by
    rw [h.total, h.total, h.total]
    exact counted_bounded answer xs

end Clearance
