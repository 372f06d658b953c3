import Clearance.Authorizer

/-!
An evaluation in one piece. The steps of the authorizer only add to the trail and see of it nothing but
the calls before, so a whole evaluation is its summary, added to whatever was there.
-/
namespace Clearance

namespace Trail

instance : Append Trail where
  append s t := {
    collector := s.collector.append t.collector.rejections
    calls := s.calls ++ t.calls
    increments := s.increments ++ t.increments
    events := s.events ++ t.events }

variable (s t u : Trail)

@[simp] theorem rejections_append :
    (s ++ t).collector.rejections = s.collector.rejections ++ t.collector.rejections := rfl

@[simp] theorem calls_append : (s ++ t).calls = s.calls ++ t.calls := rfl

@[simp] theorem increments_append : (s ++ t).increments = s.increments ++ t.increments := rfl

@[simp] theorem events_append : (s ++ t).events = s.events ++ t.events := rfl

theorem ext_rejections {s t : Trail} (rejections : s.collector.rejections = t.collector.rejections)
    (calls : s.calls = t.calls) (increments : s.increments = t.increments)
    (events : s.events = t.events) : s = t := by
  obtain ⟨⟨_⟩, _, _, _⟩ := s
  obtain ⟨⟨_⟩, _, _, _⟩ := t
  cases rejections
  cases calls
  cases increments
  cases events
  rfl

@[simp] theorem append_empty : s ++ ({} : Trail) = s := by
  apply ext_rejections <;> simp

@[simp] theorem empty_append : ({} : Trail) ++ s = s := by
  apply ext_rejections <;> simp

theorem append_assoc : s ++ t ++ u = s ++ (t ++ u) := by
  apply ext_rejections <;> simp

theorem run_bind {α β : Type} {m : StateM Trail α} {f : α → StateM Trail β} {a : α} {s t : Trail}
    (h : m.run s = (a, t)) : (m >>= f).run s = (f a).run t := by
  rw [StateT.run_bind, h]
  rfl

theorem ask_run (b : Backend) (q : Question) :
    (ask b q).run s = (b s.calls q, s ++ { calls := [.asked q (b s.calls q)] }) := by
  refine Prod.ext rfl (ext_rejections ?_ rfl ?_ ?_) <;> exact (List.append_nil _).symm

theorem hint_run (identity : Option Identity) :
    (hint identity).run s = ((), s ++ { calls := [.hinted identity] }) := by
  refine Prod.ext rfl (ext_rejections ?_ rfl ?_ ?_) <;> exact (List.append_nil _).symm

theorem reject_run (r : Rejection) :
    (reject r).run s = ((), s ++ { collector := ⟨[r]⟩ }) := by
  refine Prod.ext rfl (ext_rejections rfl ?_ ?_ ?_) <;> exact (List.append_nil _).symm

theorem count_run (i : Increment) : (count i).run s = ((), s ++ { increments := [i] }) := by
  refine Prod.ext rfl (ext_rejections ?_ ?_ rfl ?_) <;> exact (List.append_nil _).symm

theorem log_run (e : Event) : (log e).run s = ((), s ++ { events := [e] }) := by
  refine Prod.ext rfl (ext_rejections ?_ ?_ ?_ rfl) <;> exact (List.append_nil _).symm

end Trail

namespace Authorizer

/-- Asks about one name after another, each answer being part of what the next depends on. -/
def answers (b : Backend) (identity : Option Identity) (k : Kind) :
    List Call → List String → List (String × Bool)
  | _, [] => []
  | before, name :: names =>
    let q := question identity k name
    let answer := b before q
    (name, answer) :: answers b identity k (before ++ [.asked q answer]) names

def denials (l : List (String × Bool)) : List String := (l.filter (!·.2)).map Prod.fst

def checked (type : String) (identity : Option Identity) (k : Kind) (l : List (String × Bool)) :
    Trail where
  calls := l.map fun (name, answer) => .asked (question identity k name) answer
  collector := ⟨(denials l).map (rejection k)⟩
  events := (denials l).map (deniedEvent type k)

def hinted (identity : Option Identity) (names : List String) : Trail where
  calls := if names = [] then [] else [.hinted identity]

def waiver (o : Operation) (p : Policy) : Trail :=
  if o.isWaived p then
    { increments := [skippedCount o.type (o.scope.bind (·.account))]
      events := [.skipped o.type (o.scope.bind (·.account))] }
  else {}

/-- The account that is checked while no application is named. -/
def lonely (o : Operation) (account : Option String) : List String :=
  if o.expectsApplications && o.targets.isEmpty then account.toList else []

def missing (o : Operation) (account : Option String) : Trail where
  increments := (lonely o account).map (missingCount o.type)
  events := (lonely o account).map (.missingApplication o.type)

section Steps
variable (b : Backend) (type : String) (identity : Option Identity) (o : Operation) (p : Policy)

theorem settleAccount_run (s : Trail) :
    (settleAccount o p).run s = (o.checkedAccount p, s ++ waiver o p) := by
  unfold settleAccount waiver
  cases o.isWaived p
  · simp
    rfl
  · simp only [if_true]
    rw [Trail.run_bind (Trail.count_run _ _), Trail.run_bind (Trail.log_run _ _),
      Trail.append_assoc]
    rfl

theorem checked_cons (k : Kind) (a : String × Bool) (l : List (String × Bool)) :
    checked type identity k (a :: l) = checked type identity k [a] ++ checked type identity k l := by
  obtain ⟨name, answer⟩ := a
  cases answer <;> rfl

theorem check_run (k : Kind) (name : String) (s : Trail) :
    (check b type identity k name).run s =
      (b s.calls (question identity k name),
        s ++ checked type identity k [(name, b s.calls (question identity k name))]) := by
  unfold check
  rw [Trail.run_bind (Trail.ask_run _ _ _)]
  cases b s.calls (question identity k name)
  · simp only [Bool.false_eq_true, if_false]
    rw [Trail.run_bind (Trail.reject_run _ _), Trail.run_bind (Trail.log_run _ _),
      Trail.append_assoc, Trail.append_assoc]
    rfl
  · rfl

theorem checkAccount_run (account : Option String) (s : Trail) :
    (checkAccount b type identity account).run s =
      ((answers b identity .account s.calls account.toList).all (·.2),
        s ++ checked type identity .account (answers b identity .account s.calls account.toList)) := by
  cases account with
  | none =>
    refine Prod.ext rfl ?_
    exact (s.append_empty).symm
  | some account =>
    refine (check_run b type identity .account account s).trans ?_
    simp [answers]

/-- Every name is asked about, each after the calls for the names before it. -/
theorem mapM_check_run (names : List String) (s : Trail) :
    (names.mapM fun name => do
        let allowed ← check b type identity .application name
        return (name, allowed)).run s =
      (answers b identity .application s.calls names,
        s ++ checked type identity .application
          (answers b identity .application s.calls names)) := by
  induction names generalizing s with
  | nil =>
    refine Prod.ext rfl ?_
    exact (s.append_empty).symm
  | cons name names ih =>
    rw [List.mapM_cons, bind_assoc, Trail.run_bind (check_run _ _ _ _ _ _)]
    simp only [pure_bind]
    rw [Trail.run_bind (ih _)]
    refine Prod.ext rfl ?_
    rw [Trail.append_assoc, ← checked_cons]
    rfl

theorem checkApplications_run (names : List String) (s : Trail) :
    (checkApplications b type identity names).run s =
      (answers b identity .application (s ++ hinted identity names).calls names,
        s ++ hinted identity names ++ checked type identity .application
          (answers b identity .application (s ++ hinted identity names).calls names)) := by
  cases names with
  | nil =>
    refine Prod.ext rfl ?_
    exact ((s ++ hinted identity []).append_empty.trans s.append_empty).symm
  | cons name names =>
    exact (Trail.run_bind (Trail.hint_run s identity)).trans (mapM_check_run b type identity _ _)

theorem reportMissing_run (account : Option String) (s : Trail) :
    (reportMissing o account).run s = ((), s ++ missing o account) := by
  unfold reportMissing missing lonely
  split
  · cases account with
    | none => exact congrArg (fun t => ((), t)) s.append_empty.symm
    | some account =>
      refine (Trail.run_bind (Trail.count_run _ _)).trans ?_
      rw [Trail.log_run, Trail.append_assoc]
      rfl
  · exact congrArg (fun t => ((), t)) s.append_empty.symm

end Steps

section Summary
variable (b : Backend) (o : Operation) (identity : Option Identity) (p : Policy)
  (before : List Call)

def accountAnswers : List (String × Bool) :=
  answers b identity .account before (o.checkedAccount p).toList

def applicationAnswers : List (String × Bool) :=
  answers b identity .application
    (before ++ (checked o.type identity .account (accountAnswers b o identity p before)).calls ++
      (hinted identity o.targets).calls)
    o.targets

def summaryDecision : Decision where
  account := o.checkedAccount p
  accountAllowed := (accountAnswers b o identity p before).all (·.2)
  applications := applicationAnswers b o identity p before
  allowed := (accountAnswers b o identity p before).all (·.2) &&
    (applicationAnswers b o identity p before).all (·.2)

def summaryTrail : Trail :=
  waiver o p ++ checked o.type identity .account (accountAnswers b o identity p before) ++
    hinted identity o.targets ++
    checked o.type identity .application (applicationAnswers b o identity p before) ++
    missing o (o.checkedAccount p) ++
    { increments := [outcomeCount o.type (summaryDecision b o identity p before).allowed] }

theorem calls_waiver : (waiver o p).calls = [] := by
  unfold waiver
  split <;> rfl

theorem examine_run (s : Trail) :
    (examine b o identity p).run s =
      (summaryDecision b o identity p s.calls, s ++ summaryTrail b o identity p s.calls) := by
  unfold examine
  rw [Trail.run_bind (settleAccount_run _ _ _), Trail.run_bind (checkAccount_run _ _ _ _ _),
    Trail.run_bind (checkApplications_run _ _ _ _ _), Trail.run_bind (reportMissing_run _ _ _)]
  simp only
  rw [Trail.run_bind (Trail.count_run _ _)]
  simp only [Trail.calls_append, calls_waiver, List.append_nil]
  refine Prod.ext rfl ?_
  simp only [summaryTrail, Trail.append_assoc]
  rfl

theorem evaluate_run (s : Trail) :
    ((⟨some b⟩ : Authorizer).evaluate (some o) identity p).run s =
      (some (summaryDecision b o identity p s.calls), s ++ summaryTrail b o identity p s.calls) := by
  refine (StateT.run_map _ _ _).trans ?_
  rw [examine_run]
  rfl

theorem summary_calls :
    (summaryTrail b o identity p before).calls =
      (checked o.type identity .account (accountAnswers b o identity p before)).calls ++
        (hinted identity o.targets).calls ++
        (checked o.type identity .application (applicationAnswers b o identity p before)).calls := by
  simp [summaryTrail, calls_waiver, missing]

theorem summary_rejections :
    (summaryTrail b o identity p before).collector.rejections =
      (denials (accountAnswers b o identity p before)).map (rejection .account) ++
        (denials (applicationAnswers b o identity p before)).map (rejection .application) := by
  unfold summaryTrail waiver
  split <;> simp [checked, hinted, missing]

theorem summary_increments :
    (summaryTrail b o identity p before).increments =
      (waiver o p).increments ++ (missing o (o.checkedAccount p)).increments ++
        [outcomeCount o.type (summaryDecision b o identity p before).allowed] := by
  simp [summaryTrail, checked, hinted]

theorem summary_events :
    (summaryTrail b o identity p before).events =
      (waiver o p).events ++
        ((denials (accountAnswers b o identity p before)).map (deniedEvent o.type .account) ++
          (denials (applicationAnswers b o identity p before)).map
            (deniedEvent o.type .application)) ++
        (missing o (o.checkedAccount p)).events := by
  simp [summaryTrail, checked, hinted]

def summary : Evaluation where
  decision := summaryDecision b o identity p before
  calls := (summaryTrail b o identity p before).calls
  rejections := (summaryTrail b o identity p before).collector.rejections
  increments := (summaryTrail b o identity p before).increments
  events := (summaryTrail b o identity p before).events

theorem evaluate?_eq_summary :
    (⟨some b⟩ : Authorizer).evaluate? (some o) identity p before =
      some (summary b o identity p before) := by
  unfold evaluate? summary
  rw [evaluate_run]
  simp

end Summary

/-- Without a backend there is no evaluation. -/
theorem exists_summary {a : Authorizer} {o : Operation} {identity : Option Identity} {p : Policy}
    {before : List Call} {e : Evaluation} (h : a.evaluate? (some o) identity p before = some e) :
    ∃ b, e = summary b o identity p before := by
  obtain ⟨backend⟩ := a
  cases backend with
  | none => cases h
  | some b => exact ⟨b, (Option.some.inj ((evaluate?_eq_summary b o identity p before).symm.trans h)).symm⟩

end Authorizer
end Clearance
