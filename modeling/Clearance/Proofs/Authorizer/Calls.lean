import Clearance.Proofs.Authorizer.Summary
import Clearance.Proofs.Operation

/-!
The calls of an evaluation. What a backend is asked is settled by the operation, the identity and the
policy before the first answer, and every answer is the backend's own.
-/
namespace Clearance

inductive Request where
  | ask (question : Question)
  | hint (identity : Option Identity)

def Call.request : Call → Request
  | .asked q _ => .ask q
  | .hinted identity => .hint identity

namespace Authorizer

theorem requests_checked (b : Backend) (type : String) (identity : Option Identity) (k : Kind)
    (before : List Call) (names : List String) :
    (checked type identity k (answers b identity k before names)).calls.map Call.request =
      names.map fun name => .ask (question identity k name) := by
  induction names generalizing before with
  | nil => rfl
  | cons name names ih => exact congrArg (_ :: ·) (ih _)

theorem requests_summary (b : Backend) (o : Operation) (identity : Option Identity) (p : Policy)
    (before : List Call) :
    (summaryTrail b o identity p before).calls.map Call.request =
      (o.checkedAccount p).toList.map (fun name => .ask (question identity .account name)) ++
        if o.mentioned = [] then []
        else .hint identity :: o.targets.map fun name => .ask (question identity .application name) := by
  rw [summary_calls, List.map_append, List.map_append]
  simp only [accountAnswers, applicationAnswers, requests_checked, hinted, o.targets_eq_nil_iff]
  split
  · rename_i h
    simp [o.targets_eq_nil_iff.2 h]
  · simp [Call.request]

end Authorizer
end Clearance
