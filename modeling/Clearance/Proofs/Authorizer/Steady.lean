import Clearance.Proofs.Authorizer.Summary
import Clearance.Proofs.Operation

/-!
Evaluations with a backend whose answers depend on nothing but the question. Such an evaluation comes to
the same after whatever calls, so two of them can be compared as wholes. A policy has its say on the
account alone.
-/
namespace Clearance

def Evaluation.trail (e : Evaluation) : Trail where
  collector := ⟨e.rejections⟩
  calls := e.calls
  increments := e.increments
  events := e.events

namespace Authorizer

/-- Whatever the trail holds already, the evaluation gives this decision and adds the rest to the
trail. -/
def Yields (a : Authorizer) (o : Operation) (identity : Option Identity) (p : Policy)
    (e : Evaluation) : Prop :=
  ∀ s : Trail, (a.evaluate (some o) identity p).run s = (some e.decision, s ++ e.trail)

variable (answer : Question → Bool) (o : Operation) (identity : Option Identity) (p : Policy)

def replies (k : Kind) (names : List String) : List (String × Bool) :=
  names.map fun name => (name, answer (question identity k name))

theorem answers_steady (k : Kind) (before : List Call) (names : List String) :
    answers (.steady answer) identity k before names = replies answer identity k names := by
  induction names generalizing before with
  | nil => rfl
  | cons name names ih => exact congrArg (_ :: ·) (ih _)

theorem replies_names (k : Kind) (names : List String) :
    (replies answer identity k names).map Prod.fst = names := by
  simp [replies, Function.comp_def]

theorem denials_replies (k : Kind) (names : List String) :
    denials (replies answer identity k names) =
      names.filter fun name => !answer (question identity k name) := by
  simp [denials, replies, List.filter_map, Function.comp_def]

theorem all_replies (k : Kind) (names : List String) :
    (replies answer identity k names).all (·.2) =
      names.all fun name => answer (question identity k name) := by
  simp [replies, List.all_map, Function.comp_def]

def accountReplies : List (String × Bool) :=
  replies answer identity .account (o.checkedAccount p).toList

def applicationReplies : List (String × Bool) := replies answer identity .application o.targets

theorem accountAnswers_steady (before : List Call) :
    accountAnswers (.steady answer) o identity p before = accountReplies answer o identity p :=
  answers_steady answer identity .account before _

theorem applicationAnswers_steady (before : List Call) :
    applicationAnswers (.steady answer) o identity p before = applicationReplies answer o identity :=
  answers_steady answer identity .application _ _

def settledDecision : Decision where
  account := o.checkedAccount p
  accountAllowed := (accountReplies answer o identity p).all (·.2)
  applications := applicationReplies answer o identity
  allowed := (accountReplies answer o identity p).all (·.2) &&
    (applicationReplies answer o identity).all (·.2)

def settled : Evaluation where
  decision := settledDecision answer o identity p
  calls := (checked o.type identity .account (accountReplies answer o identity p)).calls ++
    (hinted identity o.targets).calls ++
    (checked o.type identity .application (applicationReplies answer o identity)).calls
  rejections := (denials (accountReplies answer o identity p)).map (rejection .account) ++
    (denials (applicationReplies answer o identity)).map (rejection .application)
  increments := (waiver o p).increments ++ (missing o (o.checkedAccount p)).increments ++
    [outcomeCount o.type (settledDecision answer o identity p).allowed]
  events := (waiver o p).events ++
    ((denials (accountReplies answer o identity p)).map (deniedEvent o.type .account) ++
      (denials (applicationReplies answer o identity)).map (deniedEvent o.type .application)) ++
    (missing o (o.checkedAccount p)).events

theorem summaryDecision_steady (before : List Call) :
    summaryDecision (.steady answer) o identity p before = settledDecision answer o identity p := by
  unfold summaryDecision settledDecision
  rw [accountAnswers_steady, applicationAnswers_steady]

theorem summaryTrail_steady (before : List Call) :
    summaryTrail (.steady answer) o identity p before = (settled answer o identity p).trail := by
  refine Trail.ext_rejections ?_ ?_ ?_ ?_
  · rw [summary_rejections, accountAnswers_steady, applicationAnswers_steady]
    rfl
  · rw [summary_calls, accountAnswers_steady, applicationAnswers_steady]
    rfl
  · rw [summary_increments, summaryDecision_steady]
    rfl
  · rw [summary_events, accountAnswers_steady, applicationAnswers_steady]
    rfl

theorem yields_settled : Yields ⟨some (.steady answer)⟩ o identity p (settled answer o identity p) := by
  intro s
  rw [evaluate_run, summaryDecision_steady, summaryTrail_steady]
  rfl

theorem evaluate?_steady : (⟨some (.steady answer)⟩ : Authorizer).evaluate? (some o) identity p =
    some (settled answer o identity p) := by
  unfold evaluate?
  rw [yields_settled]
  rfl

section Waived
variable {o p}

theorem lonely_of_isWaived (waived : o.isWaived p = true) : lonely o (o.checkedAccount p) = [] := by
  rw [o.checkedAccount_of_isWaived waived]
  exact ite_self _

theorem accountReplies_of_isWaived (waived : o.isWaived p = true) :
    accountReplies answer o identity p = [] := by
  unfold accountReplies
  rw [o.checkedAccount_of_isWaived waived]
  rfl

theorem increments_of_isWaived (waived : o.isWaived p = true) :
    (settled answer o identity p).increments =
      [skippedCount o.type (o.scope.bind (·.account)),
        outcomeCount o.type (settled answer o identity p).decision.allowed] := by
  unfold settled waiver missing
  rw [if_pos waived, lonely_of_isWaived waived]
  rfl

theorem increments_of_not_isWaived (checked : o.isWaived p = false) :
    (settled answer o identity p).increments =
      (lonely o (o.checkedAccount p)).map (missingCount o.type) ++
        [outcomeCount o.type (settled answer o identity p).decision.allowed] := by
  unfold settled waiver missing
  rw [checked]
  rfl

theorem events_of_isWaived (waived : o.isWaived p = true) :
    (settled answer o identity p).events = .skipped o.type (o.scope.bind (·.account)) ::
      (denials (applicationReplies answer o identity)).map (deniedEvent o.type .application) := by
  unfold settled waiver missing
  rw [if_pos waived, lonely_of_isWaived waived, accountReplies_of_isWaived answer identity waived]
  simp [denials]

end Waived

end Authorizer
end Clearance
