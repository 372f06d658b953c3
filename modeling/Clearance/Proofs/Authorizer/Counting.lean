import Mathlib.Data.List.Nodup
import Clearance.Proofs.Authorizer.Verdict
import Clearance.Proofs.Counter.Registry

/-!
What an evaluation counts and logs. Both follow the waiver, the rejections and the outcome, and there
is nothing to count or log where there is no evaluation.
-/
namespace Clearance.Authorizer

inductive Counts (o : Operation) (p : Policy) (allowed : Bool) : Increment → Prop where
  | outcome : Counts o p allowed
      ⟨"authorization",
        [⟨"descriptionClass", o.type⟩, ⟨"success", if allowed then "true" else "false"⟩]⟩
  | skipped (waived : o.Waived p) : Counts o p allowed
      ⟨"authorization.skipped",
        [⟨"descriptionClass", o.type⟩, ⟨"account", (o.scope.bind (·.account)).getD ""⟩]⟩
  | missing {account : String} (lonely : o.MissesApplications p account) : Counts o p allowed
      ⟨"authorization.missingApplication",
        [⟨"descriptionClass", o.type⟩, ⟨"account", account⟩]⟩

/-- Increments with the type and one more label are of one counter exactly if they have the same name and
the same labels. -/
theorem sameCounter_labelled_iff {name name' type type' label value value' : String}
    (apart : label ≠ "descriptionClass") :
    (⟨name, [⟨"descriptionClass", type⟩, ⟨label, value⟩]⟩ : Increment).SameCounter
        ⟨name', [⟨"descriptionClass", type'⟩, ⟨label, value'⟩]⟩ ↔
      name = name' ∧ type = type' ∧ value = value' := by
  refine and_congr_right fun _ => ⟨fun perm => ?_, ?_⟩
  · have types := perm.mem_iff.1 (List.mem_cons_self ..)
    have values := perm.mem_iff.1 (List.mem_cons_of_mem _ (List.mem_cons_self ..))
    simp [apart, apart.symm] at types values
    exact ⟨types, values⟩
  · rintro ⟨rfl, rfl⟩
    exact .refl _

/-- The events of an evaluation: a waiver, then the denials, then that applications are missed. -/
structure Logs (o : Operation) (p : Policy) (denied : List (Kind × String))
    (skipped denials missed : List Event) : Prop where
  waived : o.Waived p → skipped = [.skipped o.type (o.scope.bind (·.account))]
  settled : ¬ o.Waived p → skipped = []
  denied : denials = denied.map fun subject => deniedEvent o.type subject.1 subject.2
  lonely : ∀ account, o.MissesApplications p account → missed = [.missingApplication o.type account]
  attributed : (∀ account, ¬ o.MissesApplications p account) → missed = []
  severities : (∀ e ∈ skipped, e.severity = .info) ∧ (∀ e ∈ denials, e.severity = .debug) ∧
    ∀ e ∈ missed, e.severity = .warn

theorem mem_lonely (o : Operation) (p : Policy) (account : String) :
    account ∈ lonely o (o.checkedAccount p) ↔ o.MissesApplications p account := by
  unfold lonely Operation.MissesApplications
  rw [← o.checkedAccount_eq_some_iff, ← o.targets_eq_nil_iff]
  cases o.expectsApplications <;> cases o.targets <;> simp

theorem lonely_cases (o : Operation) (account : Option String) :
    lonely o account = [] ∨ ∃ name, lonely o account = [name] := by
  unfold lonely
  split
  · cases account with
    | none => exact .inl rfl
    | some name => exact .inr ⟨name, rfl⟩
  · exact .inl rfl

section Summary
variable (b : Backend) (o : Operation) (identity : Option Identity) (p : Policy)
  (before : List Call)

theorem mem_increments_iff (i : Increment) :
    i ∈ (summaryTrail b o identity p before).increments ↔
      Counts o p (summaryDecision b o identity p before).allowed i := by
  rw [summary_increments]
  simp only [List.mem_append, List.mem_singleton, missing, List.mem_map, mem_lonely]
  constructor
  · rintro ((hi | ⟨account, lonely, rfl⟩) | rfl)
    · unfold waiver at hi
      split at hi
      · rename_i waived
        obtain rfl := List.mem_singleton.1 hi
        exact .skipped ((o.isWaived_iff p).1 waived)
      · cases hi
    · exact .missing lonely
    · exact .outcome
  · rintro (_ | waived | lonely)
    · exact .inr rfl
    · rw [waiver, if_pos ((o.isWaived_iff p).2 waived)]
      exact .inl (.inl (List.mem_singleton.2 rfl))
    · exact .inl (.inr ⟨_, lonely, rfl⟩)

theorem increments_keys_nodup :
    ((summaryTrail b o identity p before).increments.map Increment.key).Nodup := by
  have names : ((summaryTrail b o identity p before).increments.map Increment.name).Nodup := by
    rw [summary_increments]
    rcases lonely_cases o (o.checkedAccount p) with h | ⟨account, h⟩ <;>
      cases waived : o.isWaived p <;>
      simp [waiver, missing, h, waived, skippedCount, missingCount, outcomeCount]
  refine List.Nodup.of_map Counter.Key.name ?_
  rw [List.map_map]
  exact names

theorem summary_events_eq :
    (summaryTrail b o identity p before).events =
      (waiver o p).events ++
        (subjects (summaryDecision b o identity p before).deniedAccount
          (summaryDecision b o identity p before).denied).map
            (fun subject => deniedEvent o.type subject.1 subject.2) ++
        (missing o (o.checkedAccount p)).events := by
  rw [summary_events, denials_accountAnswers]
  simp [subjects, Function.comp_def]
  rfl

end Summary

theorem severity_deniedEvent (type : String) (k : Kind) (name : String) :
    (deniedEvent type k name).severity = .debug := by
  cases k <;> rfl

theorem logs_of_denied (o : Operation) (p : Policy) (denied : List (Kind × String)) :
    Logs o p denied (waiver o p).events
      (denied.map fun subject => deniedEvent o.type subject.1 subject.2)
      (missing o (o.checkedAccount p)).events where
  waived h := by
    unfold waiver
    rw [if_pos ((o.isWaived_iff p).2 h)]
  settled h := by
    unfold waiver
    rw [if_neg fun waived => h ((o.isWaived_iff p).1 waived)]
  denied := rfl
  lonely account h := by
    rcases lonely_cases o (o.checkedAccount p) with none | ⟨name, one⟩
    · exact absurd ((mem_lonely o p account).2 h) (by simp [none])
    · obtain rfl : account = name := by simpa [one] using (mem_lonely o p account).2 h
      simp [missing, one]
  attributed h := by
    have none : lonely o (o.checkedAccount p) = [] :=
      List.eq_nil_iff_forall_not_mem.2 fun account ha => h account ((mem_lonely o p account).1 ha)
    simp [missing, none]
  severities := by
    refine ⟨?_, ?_, ?_⟩
    · intro e he
      unfold waiver at he
      split at he
      · rw [List.mem_singleton.1 he]
        rfl
      · cases he
    · intro e he
      obtain ⟨subject, _, rfl⟩ := List.mem_map.1 he
      exact severity_deniedEvent _ _ _
    · intro e he
      obtain ⟨account, _, rfl⟩ := List.mem_map.1 he
      rfl

/-- An evaluation moves each of its counters by one in any registry, and no other. It logs a waiver
first, then every rejection in its place, and last that applications are missed. Without a backend or
an operation there is no decision, and the trail stays as it is. -/
theorem instrumentation_evaluate :
    (∀ (b : Backend) (o : Operation) (identity : Option Identity) (p : Policy) (s : Trail),
      ∃ d t counted denied skipped denials missed,
        ((⟨some b⟩ : Authorizer).evaluate (some o) identity p).run s = (some d, t) ∧
        t.increments = s.increments ++ counted ∧
        (∀ i, i ∈ counted ↔ Counts o p d.allowed i) ∧
        (∀ (r : Counter.Registry) (k : Counter.Key), (r.apply counted).counts.get? k =
          if k ∈ counted.map Increment.key then some (r.value k + 1) else r.counts.get? k) ∧
        (∀ account, ¬ (o.Waived p ∧ o.MissesApplications p account)) ∧
        t.collector.rejections =
          s.collector.rejections ++ denied.map (fun subject => rejection subject.1 subject.2) ∧
        t.events = s.events ++ (skipped ++ denials ++ missed) ∧
        Logs o p denied skipped denials missed) ∧
    (∀ (o : Option Operation) (identity : Option Identity) (p : Policy) (s : Trail),
      ((⟨none⟩ : Authorizer).evaluate o identity p).run s = (none, s)) ∧
    ∀ (a : Authorizer) (identity : Option Identity) (p : Policy) (s : Trail),
      (a.evaluate none identity p).run s = (none, s) := by
  refine ⟨?_, ?_, ?_⟩
  · intro b o identity p s
    let d := summaryDecision b o identity p s.calls
    let added := summaryTrail b o identity p s.calls
    let denied := subjects d.deniedAccount d.denied
    refine ⟨d, s ++ added, added.increments, denied, (waiver o p).events,
      denied.map fun subject => deniedEvent o.type subject.1 subject.2,
      (missing o (o.checkedAccount p)).events,
      evaluate_run b o identity p s, rfl, ?_, ?_, ?_, ?_, ?_, logs_of_denied o p denied⟩
    · exact mem_increments_iff b o identity p s.calls
    · intro r k
      rw [Counter.Registry.get?_apply]
      split
      · rename_i moved
        rw [List.count_eq_one_of_mem (increments_keys_nodup b o identity p s.calls) moved]
      · rfl
    · rintro account ⟨waived, lonely⟩
      exact Operation.not_checksAccount_of_waived waived lonely.1
    · rw [← report_eq_map, ← summary_report]
      rfl
    · exact congrArg (s.events ++ ·) (summary_events_eq b o identity p s.calls)
  · intro o identity p s
    rfl
  · rintro ⟨backend⟩ identity p s
    cases backend <;> rfl

end Clearance.Authorizer
