import Clearance.Operation.Document
import Clearance.Operation.Shipped
import Clearance.Proofs.Authorizer.Steady
import Clearance.Proofs.Authorizer.Verdict

/-!
What a policy can do. It waives the check of the account or leaves it; the applications of an operation
are checked under every policy alike. A longer policy waives more, and so never denies what a shorter
one allows.
-/
namespace Clearance

inductive Shipped where
  | document (d : Document)
  | imageTags (t : ImageTags)
  | securityGroup (g : SecurityGroup)
  | termination (t : Termination)

def Shipped.operation : Shipped → Operation
  | document d => d.operation
  | imageTags t => t.operation
  | securityGroup g => g.operation
  | termination t => t.operation

/-- Whatever the one policy lists, the other lists as well. -/
structure Policy.Within (p q : Policy) : Prop where
  tagging : p.taggingAccounts ⊆ q.taggingAccounts
  types : p.skippedTypes ⊆ q.skippedTypes

theorem Policy.allowsTagging_within {p q : Policy} (h : p.Within q) {account : Option String}
    (allowed : p.allowsTagging account = true) : q.allowsTagging account = true := by
  cases account with
  | none => exact allowed
  | some account => exact List.contains_iff_mem.2 (h.tagging (List.contains_iff_mem.1 allowed))

theorem Shipped.needsAuthorization_within (x : Shipped) {p q : Policy} (h : p.Within q)
    {scope : AccountScope} (at_scope : x.operation.scope = some scope)
    (waived : scope.needsAuthorization p = false) : scope.needsAuthorization q = false := by
  cases x with
  | document d =>
    obtain ⟨account, _, rfl⟩ := Option.map_eq_some_iff.1 at_scope
    cases waived
  | imageTags t =>
    obtain rfl := Option.some.inj at_scope
    simp only [Bool.not_eq_false'] at waived ⊢
    exact Policy.allowsTagging_within h waived
  | securityGroup g =>
    obtain rfl := Option.some.inj at_scope
    cases waived
  | termination t =>
    obtain rfl := Option.some.inj at_scope
    cases waived

theorem Shipped.waived_within (x : Shipped) {p q : Policy} (h : p.Within q)
    (waived : x.operation.Waived p) : x.operation.Waived q := by
  obtain ⟨scope, at_scope, listed | own⟩ := waived
  · exact ⟨scope, at_scope, .inl (h.types listed)⟩
  · exact ⟨scope, at_scope, .inr (x.needsAuthorization_within h at_scope own)⟩

theorem Shipped.isWaived_congr (x : Shipped) {p q : Policy} (h : p.Within q) (h' : q.Within p) :
    x.operation.isWaived p = x.operation.isWaived q := by
  rw [Bool.eq_iff_iff, Operation.isWaived_iff, Operation.isWaived_iff]
  exact ⟨x.waived_within h, x.waived_within h'⟩

theorem Operation.isWaived_of_no_scope {o : Operation} (none : o.scope = none) (p : Policy) :
    o.isWaived p = false := by
  unfold Operation.isWaived
  rw [none]

def Call.AsksFor (k : Kind) : Call → Prop
  | .asked q _ => q.kind = k
  | .hinted _ => False

/-- Nothing is asked, decided, rejected, counted as missing or logged as missing about an account. -/
structure Evaluation.LeavesAccountOut (e : Evaluation) : Prop where
  unasked : ∀ c ∈ e.calls, ¬ c.AsksFor .account
  account : e.decision.account = none
  allowed : e.decision.accountAllowed = true
  unrejected : e.decision.deniedAccount = none
  uncounted : ∀ i ∈ e.increments, i.name ≠ "authorization.missingApplication"
  unlogged : ∀ type account, .missingApplication type account ∉ e.events

/-- An evaluation in two parts: first the account, and then the applications. -/
structure Evaluation.Parts (e : Evaluation) (first later : List Call)
    (results : List (String × Bool)) : Prop where
  calls : e.calls = first ++ later
  account : ∀ c ∈ first, c.AsksFor .account
  applications : ∀ c ∈ later, ¬ c.AsksFor .account
  decided : e.decision.applications = results
  rejections : e.rejections = e.decision.deniedAccount.toList.map (Authorizer.rejection .account) ++
    (Authorizer.denials results).map (Authorizer.rejection .application)
  allowed : e.decision.allowed = (e.decision.accountAllowed && results.all (·.2))

namespace Authorizer
variable (answer : Question → Bool) (o : Operation) (identity : Option Identity) (p q : Policy)

theorem asksFor_checked (type : String) (k : Kind) (l : List (String × Bool)) :
    ∀ c ∈ (checked type identity k l).calls, c.AsksFor k := by
  intro c mem
  obtain ⟨reply, _, rfl⟩ := List.mem_map.1 mem
  exact rfl

theorem not_asksFor_hinted (names : List String) (k : Kind) :
    ∀ c ∈ (hinted identity names).calls, ¬ c.AsksFor k := by
  intro c mem
  unfold hinted at mem
  split at mem
  · cases mem
  · obtain rfl := List.mem_singleton.1 mem
    exact id

/-- The part of an evaluation that is about applications. No policy has a say in it. -/
def applicationCalls : List Call :=
  (hinted identity o.targets).calls ++
    (checked o.type identity .application (applicationReplies answer o identity)).calls

theorem not_asksFor_applicationCalls :
    ∀ c ∈ applicationCalls answer o identity, ¬ c.AsksFor .account := by
  intro c mem asks
  rcases List.mem_append.1 mem with mem | mem
  · exact not_asksFor_hinted identity o.targets .account c mem asks
  · have application := asksFor_checked identity o.type .application _ c mem
    cases c with
    | asked question reply => cases application.symm.trans asks
    | hinted identity => exact asks

theorem denials_accountReplies :
    denials (accountReplies answer o identity p) =
      (settled answer o identity p).decision.deniedAccount.toList := by
  have summary := denials_accountAnswers (.steady answer) o identity p []
  rwa [accountAnswers_steady, summaryDecision_steady] at summary

theorem parts_settled :
    (settled answer o identity p).Parts
      (checked o.type identity .account (accountReplies answer o identity p)).calls
      (applicationCalls answer o identity) (applicationReplies answer o identity) where
  calls := List.append_assoc _ _ _
  account := asksFor_checked identity o.type .account _
  applications := not_asksFor_applicationCalls answer o identity
  decided := rfl
  rejections := by
    rw [← denials_accountReplies]
    rfl
  allowed := rfl

theorem settled_congr (same : o.isWaived p = o.isWaived q) :
    settled answer o identity p = settled answer o identity q := by
  have account : o.checkedAccount p = o.checkedAccount q := by
    unfold Operation.checkedAccount
    rw [same]
  have waivers : waiver o p = waiver o q := by
    unfold waiver
    rw [same]
  unfold settled settledDecision accountReplies
  rw [account, waivers]

theorem leavesAccountOut_settled (waived : o.isWaived p = true) :
    (settled answer o identity p).LeavesAccountOut := by
  have no_replies := accountReplies_of_isWaived answer identity waived
  have parts := parts_settled answer o identity p
  refine ⟨?_, o.checkedAccount_of_isWaived waived, ?_, ?_, ?_, ?_⟩
  · rw [parts.calls, no_replies]
    exact parts.applications
  · change (accountReplies answer o identity p).all (·.2) = true
    rw [no_replies]
    rfl
  · have none_denied := denials_accountReplies answer o identity p
    rw [no_replies] at none_denied
    exact Option.toList_eq_nil_iff.1 none_denied.symm
  · rw [increments_of_isWaived answer identity waived]
    simp [skippedCount, outcomeCount]
  · rw [events_of_isWaived answer identity waived]
    simp [deniedEvent]

theorem allowed_within (x : Shipped) (h : p.Within q)
    (allowed : (settled answer x.operation identity p).decision.allowed = true) :
    (settled answer x.operation identity q).decision.allowed = true := by
  cases waived : x.operation.isWaived q with
  | true =>
    rw [(parts_settled answer x.operation identity p).allowed, Bool.and_eq_true] at allowed
    rw [(parts_settled answer x.operation identity q).allowed,
      (leavesAccountOut_settled answer x.operation identity q waived).allowed]
    exact allowed.2
  | false =>
    have before : x.operation.isWaived p = false := by
      rw [Bool.eq_false_iff, ne_eq, Operation.isWaived_iff] at waived ⊢
      exact fun earlier => waived (x.waived_within h earlier)
    rwa [← settled_congr answer x.operation identity p q (before.trans waived.symm)]

/-- Under all policies the same is asked about applications, in the same place, with the same results and
rejections: each application that is mentioned is paired once with its answer. A waiver takes the account
out and nothing else. So a longer policy allows no less, none allows an operation with an application that
is denied, and it matters neither in which order a policy lists what it lists nor how often. Without an
account there is nothing that a policy could change. -/
theorem waiver_evaluate (answer : Question → Bool) (x : Shipped) (identity : Option Identity) :
    ∃ (e : Policy → Evaluation) (first : Policy → List Call) (later : List Call)
      (results : List (String × Bool)),
      (∀ p, Yields ⟨some (.steady answer)⟩ x.operation identity p (e p)) ∧
      (∀ p, (e p).Parts (first p) later results) ∧
      (∃ names, FirstSeen x.operation.mentioned names ∧
        results = names.map fun name => (name, answer ⟨identity, name, .application, .write⟩)) ∧
      (∀ p, x.operation.Waived p → (e p).LeavesAccountOut ∧ ∀ q, (e q).rejections =
        (e q).decision.deniedAccount.toList.map (rejection .account) ++ (e p).rejections) ∧
      (∀ p q, p.Within q → (e p).decision.allowed = true → (e q).decision.allowed = true) ∧
      (∀ name, (name, false) ∈ results → ∀ p, (e p).decision.allowed = false) ∧
      (∀ p q, p.Within q → q.Within p → e p = e q) ∧
      (x.operation.scope = none → ∀ p q, e p = e q) := by
  let o := x.operation
  have parts := parts_settled answer o identity
  refine ⟨settled answer o identity, _, _, _, yields_settled answer o identity, parts,
    ⟨o.targets, o.targets_firstSeen, rfl⟩, ?_, ?_, ?_, ?_, ?_⟩
  · intro p waived
    have out := leavesAccountOut_settled answer o identity p ((o.isWaived_iff p).2 waived)
    refine ⟨out, fun q => ?_⟩
    rw [(parts q).rejections, (parts p).rejections, out.unrejected]
    rfl
  · intro p q h
    exact allowed_within answer identity p q x h
  · intro name denied p
    have not_all : (applicationReplies answer o identity).all (·.2) = false :=
      List.all_eq_false.2 ⟨_, denied, Bool.false_ne_true⟩
    rw [(parts p).allowed, not_all, Bool.and_false]
  · intro p q h h'
    exact settled_congr answer o identity p q (x.isWaived_congr h h')
  · intro none p q
    refine settled_congr answer o identity p q ?_
    rw [Operation.isWaived_of_no_scope none, Operation.isWaived_of_no_scope none]

/-- An image is tagged in an account that one policy lists and the other does not. Without an identity
the account is denied, and so is one of the two applications under either policy. -/
theorem waiver_evaluate_tagging :
    let answer : Question → Bool := fun q => q.kind == .application && q.name != "b"
    let x : Shipped := .imageTags ⟨some "build", "base", [some "a", none, some "b"]⟩
    let listed : Policy := { taggingAccounts := ["build"] }
    x.operation.Waived listed ∧ ¬ x.operation.Waived {} ∧
      ∃ e e', Yields ⟨some (.steady answer)⟩ x.operation none listed e ∧
        Yields ⟨some (.steady answer)⟩ x.operation none {} e' ∧ e.LeavesAccountOut ∧
        e.decision.applications = [("a", true), ("b", false)] ∧
        e'.decision.applications = [("a", true), ("b", false)] ∧
        e.rejections = [⟨"authorization", "Access denied to application b"⟩] ∧
        e'.rejections = ⟨"authorization", "Access denied to account build"⟩ :: e.rejections ∧
        e.decision.allowed = false := by
  intro answer x listed
  have waived : x.operation.Waived listed := (x.operation.isWaived_iff listed).1 (by decide)
  have checked : ¬ x.operation.Waived {} := fun h =>
    absurd ((x.operation.isWaived_iff {}).2 h) (by decide)
  obtain ⟨e, _, _, results, yields, parts, ⟨names, seen, answered⟩, waiver, -, denied, -⟩ :=
    waiver_evaluate answer x none
  have named : names = ["a", "b"] := seen.unique (firstSeen_eraseDups _)
  have paired : results = [("a", true), ("b", false)] := by
    rw [answered, named]
    decide
  obtain ⟨out, apart⟩ := waiver listed waived
  have decided : some (e {}).decision =
      some ⟨some "build", false, [("a", true), ("b", false)], false⟩ :=
    (congrArg Prod.fst (yields {} {})).symm.trans (by decide +kernel)
  refine ⟨waived, checked, e listed, e {}, yields listed, yields {}, out, ?_, ?_, ?_, ?_, ?_⟩
  · rw [(parts listed).decided, paired]
  · rw [(parts {}).decided, paired]
  · rw [(parts listed).rejections, out.unrejected, paired]
    decide
  · rw [apart {}, Option.some.inj decided]
    rfl
  · exact denied "b" (by rw [paired]; decide) listed

end Authorizer
end Clearance
