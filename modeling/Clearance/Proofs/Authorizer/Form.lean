import Clearance.Authorizer

/-!
What an evaluation sees of an operation. It is the operation's type, whether the policy waives the
account, the account, whether applications are expected, and the applications that are named, each once.
Operations of one form cannot be told apart.
-/
namespace Clearance

/-- An operation under a policy, as an evaluation sees it. -/
structure Form where
  type : String
  waived : Bool
  account : Option String
  expectsApplications : Bool
  names : List String
deriving DecidableEq, Repr

def Operation.form (o : Operation) (p : Policy) : Form where
  type := o.type
  waived := o.isWaived p
  account := o.scope.bind (·.account)
  expectsApplications := o.expectsApplications
  names := o.targets

namespace Authorizer
variable {o o' : Operation} {p p' : Policy}

theorem settleAccount_form (same : o.form p = o'.form p') : settleAccount o p = settleAccount o' p' := by
  have type : o.type = o'.type := congrArg Form.type same
  have waived : o.isWaived p = o'.isWaived p' := congrArg Form.waived same
  have account : o.scope.bind (·.account) = o'.scope.bind (·.account) := congrArg Form.account same
  unfold settleAccount Operation.checkedAccount
  rw [type, waived, account]

theorem reportMissing_form (same : o.form p = o'.form p') (account : Option String) :
    reportMissing o account = reportMissing o' account := by
  have type : o.type = o'.type := congrArg Form.type same
  have expected : o.expectsApplications = o'.expectsApplications :=
    congrArg Form.expectsApplications same
  have names : o.targets = o'.targets := congrArg Form.names same
  unfold reportMissing
  rw [type, expected, names]

theorem examine_form (same : o.form p = o'.form p') (b : Backend) (identity : Option Identity) :
    examine b o identity p = examine b o' identity p' := by
  have type : o.type = o'.type := congrArg Form.type same
  have names : o.targets = o'.targets := congrArg Form.names same
  have missing : reportMissing o = reportMissing o' := funext (reportMissing_form same)
  unfold examine
  rw [settleAccount_form same, missing, names, type]

/-- After whatever is on the trail before, operations of one form are asked about, decided, rejected,
counted and logged alike. -/
theorem evaluate_form (same : o.form p = o'.form p') (a : Authorizer) (identity : Option Identity) :
    a.evaluate (some o) identity p = a.evaluate (some o') identity p' := by
  unfold evaluate
  cases a.backend with
  | none => rfl
  | some b => exact congrArg (some <$> ·) (examine_form same b identity)

end Authorizer
end Clearance
