import Mathlib.Data.List.Nodup
import Clearance.Proofs.Authorizer.Summary
import Clearance.Proofs.Operation

/-!
The verdict of an evaluation and what it leaves in the collector say the same: who is denied can be
read off either of them.
-/
namespace Clearance

def answered (calls : List Call) : List (Question × Bool) :=
  calls.filterMap fun
    | .asked q answer => some (q, answer)
    | .hinted _ => none

theorem mem_answered {calls : List Call} {q : Question} {answer : Bool} :
    (q, answer) ∈ answered calls ↔ .asked q answer ∈ calls := by
  unfold answered
  rw [List.mem_filterMap]
  constructor
  · rintro ⟨c, hc, h⟩
    cases c with
    | asked q' answer' =>
      obtain ⟨rfl, rfl⟩ := Prod.mk.inj (Option.some.inj h)
      exact hc
    | hinted identity => cases h
  · intro h
    exact ⟨_, h, rfl⟩

/-- The account that was asked about in vain. -/
def Decision.deniedAccount (d : Decision) : Option String :=
  if d.accountAllowed then none else d.account

namespace Authorizer

def report (account : Option String) (names : List String) : List Rejection :=
  account.toList.map (rejection .account) ++ names.map (rejection .application)

/-- No name makes the message of an account that of an application: they differ behind "Access denied
to a" already. -/
theorem message_inj {k k' : Kind} {name name' : String}
    (h : (rejection k name).message = (rejection k' name').message) : k = k' ∧ name = name' := by
  cases k <;> cases k'
  · exact ⟨rfl, (String.append_right_inj _).1 h⟩
  · have apart := congrArg (fun m => m.toList[18]?) h
    simp [rejection] at apart
  · have apart := congrArg (fun m => m.toList[18]?) h
    simp [rejection] at apart
  · exact ⟨rfl, (String.append_right_inj _).1 h⟩

theorem subject_message_inj :
    Function.Injective fun subject : Kind × String => (rejection subject.1 subject.2).message := by
  intro a a' same
  obtain ⟨kinds, names⟩ := message_inj same
  exact Prod.ext kinds names

/-- Denied names with their kinds, the account first. -/
def subjects (account : Option String) (names : List String) : List (Kind × String) :=
  account.toList.map (.account, ·) ++ names.map (.application, ·)

theorem report_eq_map (account : Option String) (names : List String) :
    report account names = (subjects account names).map fun subject =>
      rejection subject.1 subject.2 := by
  simp [report, subjects, Function.comp_def]

theorem subjects_inj {account account' : Option String} {names names' : List String}
    (h : subjects account names = subjects account' names') : account = account' ∧ names = names' := by
  have apps : Function.Injective fun name : String => (Kind.application, name) :=
    fun _ _ h => (Prod.mk.inj h).2
  cases account with
  | none =>
    cases account' with
    | none => exact ⟨rfl, List.map_injective_iff.2 apps h⟩
    | some _ => cases names <;> simp [subjects] at h
  | some _ =>
    cases account' with
    | none => cases names' <;> simp [subjects] at h
    | some _ =>
      obtain ⟨same, rest⟩ := List.cons.inj h
      exact ⟨congrArg some (Prod.mk.inj same).2, List.map_injective_iff.2 apps rest⟩

theorem report_inj {account account' : Option String} {names names' : List String}
    (h : (report account names).map (·.message) = (report account' names').map (·.message)) :
    account = account' ∧ names = names' := by
  simp only [report_eq_map, List.map_map] at h
  exact subjects_inj (List.map_injective_iff.2 subject_message_inj h)

theorem report_nodup (account : Option String) {names : List String} (h : names.Nodup) :
    (report account names).Nodup := by
  have inj : Function.Injective fun subject : Kind × String => rejection subject.1 subject.2 :=
    fun _ _ same => subject_message_inj (congrArg Rejection.message same)
  rw [report_eq_map]
  refine List.Nodup.map inj ?_
  have apps : (names.map (Kind.application, ·)).Nodup :=
    h.map fun _ _ same => (Prod.mk.inj same).2
  cases account with
  | none => exact apps
  | some account => exact List.nodup_cons.2 ⟨by simp, apps⟩

theorem code_report {account : Option String} {names : List String} {r : Rejection}
    (h : r ∈ report account names) : r.code = "authorization" := by
  rw [report_eq_map] at h
  obtain ⟨⟨k, name⟩, _, rfl⟩ := List.mem_map.1 h
  cases k <;> rfl

section Answers
variable (b : Backend) (type : String) (identity : Option Identity) (k : Kind)

theorem answers_names (before : List Call) (names : List String) :
    (answers b identity k before names).map Prod.fst = names := by
  induction names generalizing before with
  | nil => rfl
  | cons name names ih => exact congrArg (name :: ·) (ih _)

theorem answered_checked (l : List (String × Bool)) :
    answered (checked type identity k l).calls =
      l.map fun answer => (question identity k answer.1, answer.2) := by
  induction l with
  | nil => rfl
  | cons a l ih => exact congrArg (_ :: ·) ih

theorem denials_eq_nil_iff (l : List (String × Bool)) : denials l = [] ↔ l.all (·.2) = true := by
  simp [denials]

theorem denials_sublist (l : List (String × Bool)) :
    (denials l).Sublist (l.map Prod.fst) :=
  List.filter_sublist.map _

end Answers

section Summary
variable (b : Backend) (o : Operation) (identity : Option Identity) (p : Policy)
  (before : List Call)

theorem applicationAnswers_names :
    (applicationAnswers b o identity p before).map Prod.fst = o.targets :=
  answers_names b identity .application _ _

theorem answered_summary :
    answered (summaryTrail b o identity p before).calls =
      (accountAnswers b o identity p before).map
          (fun answer => (question identity .account answer.1, answer.2)) ++
        (applicationAnswers b o identity p before).map
          fun answer => (question identity .application answer.1, answer.2) := by
  have hint : answered (hinted identity o.targets).calls = [] := by
    unfold hinted
    split <;> rfl
  rw [summary_calls]
  unfold answered at hint ⊢
  rw [List.filterMap_append, List.filterMap_append, hint, List.append_nil]
  exact congrArg₂ (· ++ ·) (answered_checked o.type identity .account _)
    (answered_checked o.type identity .application _)

/-- At most one account is asked about, so it is the one that is denied. -/
theorem denials_accountAnswers :
    denials (accountAnswers b o identity p before) =
      (summaryDecision b o identity p before).deniedAccount.toList := by
  unfold Decision.deniedAccount summaryDecision accountAnswers
  cases o.checkedAccount p with
  | none => rfl
  | some account =>
    simp only [Option.toList_some, answers]
    cases b before (question identity .account account) <;> rfl

theorem summary_report :
    (summaryTrail b o identity p before).collector.rejections =
      report (summaryDecision b o identity p before).deniedAccount
        (summaryDecision b o identity p before).denied := by
  rw [summary_rejections, denials_accountAnswers]
  rfl

theorem denied_nodup : (summaryDecision b o identity p before).denied.Nodup := by
  refine (denials_sublist (applicationAnswers b o identity p before)).nodup ?_
  rw [applicationAnswers_names]
  exact o.targets_firstSeen.nodup

theorem summary_allowed_iff :
    (summaryDecision b o identity p before).allowed = true ↔
      (summaryTrail b o identity p before).collector.rejections = [] := by
  rw [summary_rejections, List.append_eq_nil_iff, List.map_eq_nil_iff, List.map_eq_nil_iff,
    denials_eq_nil_iff, denials_eq_nil_iff]
  exact Bool.and_eq_true _ _ ▸ Iff.rfl

theorem summary_allowed_iff_answers :
    (summaryDecision b o identity p before).allowed = true ↔
      ∀ q answer, .asked q answer ∈ (summaryTrail b o identity p before).calls → answer = true := by
  have all : ∀ l : List (String × Bool), l.all (·.2) = true ↔ ∀ a ∈ l, a.2 = true :=
    fun l => List.all_eq_true
  have decided : (summaryDecision b o identity p before).allowed = true ↔ _ :=
    Bool.and_eq_true_iff
  rw [decided, all, all]
  simp only [← mem_answered, answered_summary, List.mem_append, List.mem_map]
  constructor
  · rintro ⟨account, applications⟩ q answer (⟨a, ha, h⟩ | ⟨a, ha, h⟩)
    · exact (Prod.mk.inj h).2 ▸ account a ha
    · exact (Prod.mk.inj h).2 ▸ applications a ha
  · intro h
    exact ⟨fun a ha => h _ _ (.inl ⟨a, ha, rfl⟩), fun a ha => h _ _ (.inr ⟨a, ha, rfl⟩)⟩

theorem summary_applications :
    (summaryDecision b o identity p before).applications =
      ((answered (summaryTrail b o identity p before).calls).filter (·.1.kind = .application)).map
        fun answer => (answer.1.name, answer.2) := by
  rw [answered_summary, List.filter_append, List.filter_map, List.filter_map]
  simp [question, Function.comp_def, summaryDecision]

theorem summary_deniedAccount (name : String) :
    (summaryDecision b o identity p before).deniedAccount = some name ↔
      .asked ⟨identity, name, .account, .write⟩ false ∈
        (summaryTrail b o identity p before).calls := by
  rw [← mem_answered, answered_summary, ← Option.mem_toList, ← denials_accountAnswers]
  simp [denials, question]

end Summary

/-- An operation is allowed exactly if no answer was a denial and nothing was rejected. What is added
to the collector reports the denied account and then the denied applications, and tells them apart
from all others. What the collector held before is kept, and no part of the evaluation depends on it. -/
theorem verdict_evaluate (b : Backend) (o : Operation) (identity : Option Identity) (p : Policy)
    (s : Trail) :
    ∃ d t made appended,
      ((⟨some b⟩ : Authorizer).evaluate (some o) identity p).run s = (some d, t) ∧
      t.calls = s.calls ++ made ∧
      t.collector.rejections = s.collector.rejections ++ appended ∧
      (d.allowed = true ↔ ∀ q answer, .asked q answer ∈ made → answer = true) ∧
      (d.allowed = true ↔ appended = []) ∧
      (d.applications = ((answered made).filter (·.1.kind = .application)).map
        fun answer => (answer.1.name, answer.2)) ∧
      (∀ name, d.deniedAccount = some name ↔
        .asked ⟨identity, name, .account, .write⟩ false ∈ made) ∧
      appended = report d.deniedAccount d.denied ∧
      (∀ r ∈ appended, r.code = "authorization") ∧ appended.Nodup ∧
      (∀ account names, (report account names).map (·.message) = appended.map (·.message) →
        account = d.deniedAccount ∧ names = d.denied) ∧
      ∀ c : Collector,
        ((⟨some b⟩ : Authorizer).evaluate (some o) identity p).run { s with collector := c } =
          (some d, { t with collector := c.append appended }) := by
  let d := summaryDecision b o identity p s.calls
  let added := summaryTrail b o identity p s.calls
  have reported : added.collector.rejections = report d.deniedAccount d.denied :=
    summary_report b o identity p s.calls
  refine ⟨d, s ++ added, added.calls, added.collector.rejections,
    evaluate_run b o identity p s, rfl, rfl, ?_, ?_, ?_, ?_, reported, ?_, ?_, ?_, ?_⟩
  · exact summary_allowed_iff_answers b o identity p s.calls
  · exact summary_allowed_iff b o identity p s.calls
  · exact summary_applications b o identity p s.calls
  · exact summary_deniedAccount b o identity p s.calls
  · intro r hr
    exact code_report (reported ▸ hr)
  · rw [reported]
    exact report_nodup _ (denied_nodup b o identity p s.calls)
  · intro account names same
    exact report_inj (reported ▸ same)
  · intro c
    exact evaluate_run b o identity p { s with collector := c }

end Authorizer
end Clearance
