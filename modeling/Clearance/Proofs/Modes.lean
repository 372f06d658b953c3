import Clearance.Command.Run
import Clearance.Proofs.Batch
import Clearance.Proofs.Authorizer.Verdict
import Clearance.Proofs.Except
import Clearance.Proofs.Grants.Building

/-!
The two modes of a deployment. With authorization disabled nothing is asked and every operation passes.
With authorization enabled whoever has no entry in the table is denied all that is checked, and without
a table nobody has one.
-/
namespace Clearance
open Authorizer

/-- What is checked for a document: its account, if one is named and the type is not waived, and the
applications that are named, each once. -/
structure Document.Checks (d : Document) (p : Policy) (account : Option String) (names : List String) :
    Prop where
  account : ∀ name, account = some name ↔ d.account = some (some name) ∧ d.type ∉ p.skippedTypes
  names : FirstSeen (Operation.given d.applications ++ Operation.given d.owners) names

/-- All that is checked is denied, and there is a rejection for each. It is allowed only if there is
nothing to check. -/
structure Outcome.DeniesAll (o : Outcome) (account : Option String) (names : List String) : Prop where
  rejections : o.rejections = report account names
  decision : o.decision = some
    ⟨account, account.isNone, names.map fun name => (name, false), account.isNone && names.isEmpty⟩
  allowed : o.isAllowed = true ↔ account = none ∧ names = []

theorem Document.checks_operation (d : Document) (p : Policy) :
    d.Checks p (d.operation.checkedAccount p) d.operation.targets := by
  constructor
  · intro name
    rw [Operation.checkedAccount_eq_some_iff]
    cases given : d.account <;> simp [Operation.ChecksAccount, operation, given]
  · exact d.operation.targets_firstSeen

theorem report_eq_nil_iff (account : Option String) (names : List String) :
    report account names = [] ↔ account = none ∧ names = [] := by
  simp [report]

section Denied
variable {answer : Question → Bool} {identity : Option Identity}
  (denied : ∀ k name, answer (question identity k name) = false)
include denied

theorem replies_of_denied (k : Kind) (names : List String) :
    replies answer identity k names = names.map fun name => (name, false) := by
  simp [replies, denied]

theorem denials_of_denied (k : Kind) (names : List String) :
    denials (replies answer identity k names) = names := by
  simp [denials_replies, denied]

theorem deniesAll_settled (o : Operation) (p : Policy) :
    Outcome.DeniesAll ⟨some (settled answer o identity p)⟩ (o.checkedAccount p) o.targets := by
  have rejected : (settled answer o identity p).rejections = report (o.checkedAccount p) o.targets := by
    simp only [settled, accountReplies, applicationReplies, denials_of_denied denied, report]
  constructor
  · exact rejected
  · have replied : (settled answer o identity p).decision = settledDecision answer o identity p := rfl
    simp only [Outcome.decision, Option.map_some, replied, settledDecision, accountReplies,
      applicationReplies, replies_of_denied denied]
    cases o.checkedAccount p <;> cases o.targets <;> rfl
  · rw [← report_eq_nil_iff, ← rejected]
    exact List.isEmpty_iff

end Denied

section Accepted
variable {s : Settings} {text : String} {d : Document} (accepted : Document.parse text = .ok d)
include accepted

theorem check_of_accepted (a : Authorizer) (principal : Option String) :
    check a s text principal =
      .ok ⟨a.evaluate? (some d.operation) (some (caller principal)) s.security⟩ := by
  unfold check
  rw [accepted]
  rfl

/-- With authorization disabled nothing is evaluated, and whatever was counted and logged stays as it
is. -/
theorem check_of_disabled (disabled : s.authorization.enabled = false) (grants : Option GrantTable)
    (principal : Option String) :
    check (s.authorizer grants).1 s text principal = .ok ⟨none⟩ ∧
      ∀ j, ((s.authorizer grants).1.checkNext s ⟨text, principal⟩).run j = (.ok ⟨none⟩, j) := by
  have none_wired : (s.authorizer grants).1 = ⟨none⟩ := by
    unfold Settings.authorizer
    rw [disabled]
    rfl
  have outcome : check (s.authorizer grants).1 s text principal = .ok ⟨none⟩ := by
    rw [none_wired, check_of_accepted accepted]
    rfl
  constructor
  · exact outcome
  · intro j
    have alone : (s.authorizer grants).1.checkAlone s ⟨text, principal⟩ = .ok ⟨none⟩ := outcome
    rw [checkNext_run (steady_authorizer s grants), alone]
    simp [Journal.enter, Outcome.trail, Counter.Registry.apply]

/-- Whoever has no entry in the table is denied everything. -/
theorem check_of_unlisted (enabled : s.authorization.enabled = true) {grants : Option GrantTable}
    {principal : Option String}
    (unlisted : (grants.getD {}).principals.get? (caller principal).principal = none) :
    ∃ o account names, check (s.authorizer grants).1 s text principal = .ok o ∧
      d.Checks s.security account names ∧ o.DeniesAll account names := by
  let answer (q : Question) := (grants.getD {}).allows q.identity q.kind q.name q.level
  have wired : (s.authorizer grants).1 = ⟨some (.steady answer)⟩ := by
    unfold Settings.authorizer
    rw [enabled]
    rfl
  have denied : ∀ k name, answer (question (some (caller principal)) k name) = false :=
    fun k name => GrantTable.allows_of_absent unlisted k name .write
  refine ⟨_, _, _, ?_, d.checks_operation s.security, deniesAll_settled denied d.operation s.security⟩
  rw [check_of_accepted accepted, wired, evaluate?_steady]

end Accepted

/-- Disabled, every operation passes without a trace, whatever is granted. Enabled without a table, it is
as with the empty one, and all that is checked is rejected. A caller without a principal is `anonymous` in
every respect, so whatever is checked is rejected if the table has no such entry. -/
theorem check_modes (s : Settings) (text : String) (d : Document)
    (accepted : Document.parse text = .ok d) :
    (s.authorization.enabled = false → ∀ grants principal, ∃ o,
      check (s.authorizer grants).1 s text principal = .ok o ∧ o.rejections = [] ∧ o.decision = none ∧
        ∀ j, ((s.authorizer grants).1.checkNext s ⟨text, principal⟩).run j = (.ok o, j)) ∧
    (s.authorization.enabled = true → (s.authorizer none).1 = (s.authorizer (some {})).1 ∧
      ∀ principal, ∃ o account names, check (s.authorizer none).1 s text principal = .ok o ∧
        d.Checks s.security account names ∧ o.DeniesAll account names) ∧
    (∀ a : Authorizer, check a s text none = check a s text (some "anonymous") ∧
      ∀ j, (a.checkNext s ⟨text, none⟩).run j = (a.checkNext s ⟨text, some "anonymous"⟩).run j) ∧
    (∀ (files : Files) (e : Environment) (i : Command.Invocation) (host : Command.Host),
      Command.runInvocation files e { i with principal := none } host =
        Command.runInvocation files e { i with principal := some "anonymous" } host) ∧
    (s.authorization.enabled = true → ∀ table : GrantTable, table.principals.get? "anonymous" = none →
      ∃ o account names, check (s.authorizer (some table)).1 s text none = .ok o ∧
        d.Checks s.security account names ∧ o.DeniesAll account names) := by
  refine ⟨?_, ?_, ?_, ?_, ?_⟩
  · intro disabled grants principal
    obtain ⟨outcome, left⟩ := check_of_disabled accepted disabled grants principal
    exact ⟨⟨none⟩, outcome, rfl, rfl, left⟩
  · intro enabled
    constructor
    · simp [Settings.authorizer, enabled]
    · intro principal
      exact check_of_unlisted accepted enabled rfl
  · exact fun a => ⟨rfl, fun j => rfl⟩
  · exact fun files e i host => rfl
  · intro enabled table unlisted
    exact check_of_unlisted accepted enabled unlisted

/-- Only someone else has a grant for the account. An application is named twice, and another place is left
open. -/
theorem check_modes_unlisted :
    let text := "\x7b\"type\":\"t\",\"account\":\"a\",\"applications\":[\"x\",null,\"x\"]\x7d"
    let table := ({} : GrantTable).receiveAll [⟨"bob", .account, "a", .write⟩]
    let off : Settings := { authorization := { enabled := false } }
    (∃ o names, check (({} : Settings).authorizer (some table)).1 {} text none = .ok o ∧
        o.DeniesAll (some "a") names ∧ "x" ∈ names ∧ names.Nodup) ∧
      ∃ o, check (off.authorizer (some table)).1 off text none = .ok o ∧ o.rejections = [] := by
  intro text table off
  let d : Document :=
    { type := "t", account := some (some "a"), applications := some (some [some "x", none, some "x"]) }
  have accepted : Document.parse text = .ok d := eq_ok_of_toOption (by decide +kernel)
  have unlisted : table.principals.get? "anonymous" = none := by decide +kernel
  constructor
  · obtain ⟨-, -, -, -, rejects⟩ := check_modes {} text d accepted
    obtain ⟨o, account, names, outcome, checks, denied⟩ := rejects rfl table unlisted
    obtain rfl : account = some "a" := (checks.account "a").2 ⟨rfl, List.not_mem_nil⟩
    have named : "x" ∈ names := (checks.names.mem "x").2 (by decide)
    exact ⟨o, names, outcome, denied, named, checks.names.nodup⟩
  · obtain ⟨passes, -⟩ := check_modes off text d accepted
    obtain ⟨o, outcome, none, -⟩ := passes rfl (some table) none
    exact ⟨o, outcome, none⟩

end Clearance
