import Clearance.Operation.Document
import Clearance.Proofs.Authorizer.Counting
import Clearance.Proofs.Except

/-!
What a counter tells about the operations that it has counted. A counter of operations that miss their
applications stands for one type and one account. So does a counter of waivers, but that it takes an account
with the empty name for none.
-/
namespace Clearance

/-- The account that a document names. -/
def Document.named (d : Document) : Option String := d.account.join

/-- The counters that an evaluation moves. -/
def Evaluation.counters (e : Evaluation) : List Counter.Key := e.increments.map Increment.key

theorem Document.account_operation (d : Document) : d.operation.scope.bind (·.account) = d.named := by
  unfold operation named
  cases d.account <;> rfl

/-- Two accounts that a counter of waivers does not tell apart. -/
def Confused (account account' : Option String) : Prop :=
  account = none ∧ account' = some "" ∨ account = some "" ∧ account' = none

theorem getD_eq_iff (account account' : Option String) :
    account.getD "" = account'.getD "" ↔ account = account' ∨ Confused account account' := by
  unfold Confused
  cases account <;> cases account' <;> simp [eq_comm]

namespace Authorizer

theorem key_labelled_iff {name name' type type' label value value' : String}
    (apart : label ≠ "descriptionClass") :
    (⟨name, [⟨"descriptionClass", type⟩, ⟨label, value⟩]⟩ : Increment).key =
        (⟨name', [⟨"descriptionClass", type'⟩, ⟨label, value'⟩]⟩ : Increment).key ↔
      name = name' ∧ type = type' ∧ value = value' :=
  (Increment.key_eq_iff _ _).trans (sameCounter_labelled_iff apart)

section Counters
variable {a : Authorizer} {o : Operation} {identity : Option Identity} {p : Policy}
  {before : List Call} {e : Evaluation}
  (h : a.evaluate? (some o) identity p before = some e)
include h

theorem mem_counters_iff (k : Counter.Key) :
    k ∈ e.counters ↔ ∃ i, Counts o p e.decision.allowed i ∧ i.key = k := by
  obtain ⟨b, rfl⟩ := exists_summary h
  refine List.mem_map.trans (exists_congr fun i => and_congr_left fun _ => ?_)
  exact mem_increments_iff b o identity p before i

theorem mem_counters_skipped_iff (k : Counter.Key) :
    k ∈ e.counters ∧ k.name = "authorization.skipped" ↔
      o.Waived p ∧ k = (skippedCount o.type (o.scope.bind (·.account))).key := by
  rw [mem_counters_iff h]
  constructor
  · rintro ⟨⟨_, counted, rfl⟩, name⟩
    cases counted with
    | outcome => exact absurd (show "authorization" = "authorization.skipped" from name) (by decide)
    | skipped waived => exact ⟨waived, rfl⟩
    | missing =>
      exact absurd (show "authorization.missingApplication" = "authorization.skipped" from name)
        (by decide)
  · rintro ⟨waived, rfl⟩
    exact ⟨⟨_, .skipped waived, rfl⟩, rfl⟩

theorem mem_counters_missing_iff (k : Counter.Key) :
    k ∈ e.counters ∧ k.name = "authorization.missingApplication" ↔
      ∃ account, o.MissesApplications p account ∧ k = (missingCount o.type account).key := by
  rw [mem_counters_iff h]
  constructor
  · rintro ⟨⟨_, counted, rfl⟩, name⟩
    cases counted with
    | outcome =>
      exact absurd (show "authorization" = "authorization.missingApplication" from name) (by decide)
    | skipped =>
      exact absurd (show "authorization.skipped" = "authorization.missingApplication" from name)
        (by decide)
    | missing lonely => exact ⟨_, lonely, rfl⟩
  · rintro ⟨account, lonely, rfl⟩
    exact ⟨⟨_, .missing lonely, rfl⟩, rfl⟩

end Counters

theorem named_of_missesApplications {d : Document} {p : Policy} {account : String}
    (lonely : d.operation.MissesApplications p account) : d.named = some account := by
  obtain ⟨⟨scope, here, named, -⟩, -⟩ := lonely
  rw [← d.account_operation, here]
  exact named

section Shared
variable {a a' : Authorizer} {d d' : Document} {identity identity' : Option Identity}
  {p p' : Policy} {before before' : List Call} {e e' : Evaluation}
  (h : a.evaluate? (some d.operation) identity p before = some e)
  (h' : a'.evaluate? (some d'.operation) identity' p' before' = some e')
include h h'

theorem attributed_missing {k : Counter.Key} (mem : k ∈ e.counters) (mem' : k ∈ e'.counters)
    (name : k.name = "authorization.missingApplication") :
    d.type = d'.type ∧ ∃ account, d.named = some account ∧ d'.named = some account := by
  obtain ⟨account, lonely, here⟩ := (mem_counters_missing_iff h k).1 ⟨mem, name⟩
  obtain ⟨account', lonely', there⟩ := (mem_counters_missing_iff h' k).1 ⟨mem', name⟩
  obtain ⟨-, types, rfl⟩ := (key_labelled_iff (by decide)).1 (here.symm.trans there)
  exact ⟨types, account, named_of_missesApplications lonely, named_of_missesApplications lonely'⟩

theorem shares_skipped_iff :
    (∃ k ∈ e.counters, k ∈ e'.counters ∧ k.name = "authorization.skipped") ↔
      d.operation.Waived p ∧ d'.operation.Waived p' ∧ d.type = d'.type ∧
        (d.named = d'.named ∨ Confused d.named d'.named) := by
  have same : (skippedCount d.operation.type (d.operation.scope.bind (·.account))).key =
      (skippedCount d'.operation.type (d'.operation.scope.bind (·.account))).key ↔
        d.type = d'.type ∧ (d.named = d'.named ∨ Confused d.named d'.named) := by
    refine (key_labelled_iff (by decide)).trans ?_
    rw [d.account_operation, d'.account_operation, getD_eq_iff]
    exact and_iff_right rfl
  constructor
  · rintro ⟨k, mem, mem', name⟩
    obtain ⟨waived, here⟩ := (mem_counters_skipped_iff h k).1 ⟨mem, name⟩
    obtain ⟨waived', there⟩ := (mem_counters_skipped_iff h' k).1 ⟨mem', name⟩
    exact ⟨waived, waived', same.1 (here.symm.trans there)⟩
  · rintro ⟨waived, waived', alike⟩
    obtain ⟨mem, name⟩ := (mem_counters_skipped_iff h _).2 ⟨waived, rfl⟩
    obtain ⟨mem', -⟩ := (mem_counters_skipped_iff h' _).2 ⟨waived', same.2 alike⟩
    exact ⟨_, mem, mem', name⟩

end Shared

/-- Two evaluations that move one counter of operations that miss their applications are of documents of
one type that name the same account. Two that move one counter of waivers are of documents of one type,
and the account is the same, or none is named, in both, but that one of them may name none and the other
the empty name. This is the only confusion: waivers of one type are counted together exactly if they
are of one account, or confused. -/
theorem attribution_evaluate (a a' : Authorizer) (d d' : Document)
    (identity identity' : Option Identity) (p p' : Policy) (before before' : List Call)
    (e e' : Evaluation) (h : a.evaluate? (some d.operation) identity p before = some e)
    (h' : a'.evaluate? (some d'.operation) identity' p' before' = some e') :
    (∀ k ∈ e.counters, k ∈ e'.counters → k.name = "authorization.missingApplication" →
      d.type = d'.type ∧ ∃ account, d.named = some account ∧ d'.named = some account) ∧
    ((∃ k ∈ e.counters, k ∈ e'.counters ∧ k.name = "authorization.skipped") ↔
      d.operation.Waived p ∧ d'.operation.Waived p' ∧ d.type = d'.type ∧
        (d.named = d'.named ∨ Confused d.named d'.named)) ∧
    (¬ Confused d.named d'.named → ∀ k ∈ e.counters, k ∈ e'.counters →
      k.name = "authorization.skipped" ∨ k.name = "authorization.missingApplication" →
      d.type = d'.type ∧ d.named = d'.named) := by
  refine ⟨fun k mem mem' name => attributed_missing h h' mem mem' name, shares_skipped_iff h h', ?_⟩
  rintro clear k mem mem' (name | name)
  · obtain ⟨-, -, types, accounts⟩ := (shares_skipped_iff h h').1 ⟨k, mem, mem', name⟩
    exact ⟨types, accounts.resolve_right clear⟩
  · obtain ⟨types, account, named, named'⟩ := attributed_missing h h' mem mem' name
    exact ⟨types, named.trans named'.symm⟩

/-- Waivers for two accounts are counted apart, also where one of these has the empty name. -/
theorem attribution_evaluate_apart :
    let a : Authorizer := ⟨some (.steady fun _ => true)⟩
    let p : Policy := { skippedTypes := ["t"] }
    let d : Document := { type := "t", account := some (some "") }
    let d' : Document := { type := "t", account := some (some "prod") }
    ∃ e e', a.evaluate? (some d.operation) none p = some e ∧
      a.evaluate? (some d'.operation) none p = some e' ∧
      ¬ ∃ k ∈ e.counters, k ∈ e'.counters ∧ k.name = "authorization.skipped" := by
  intro a p d d'
  obtain ⟨e, ran⟩ : ∃ e, a.evaluate? (some d.operation) none p = some e := ⟨_, rfl⟩
  obtain ⟨e', ran'⟩ : ∃ e, a.evaluate? (some d'.operation) none p = some e := ⟨_, rfl⟩
  refine ⟨e, e', ran, ran', ?_⟩
  rw [(attribution_evaluate a a d d' none none p p [] [] e e' ran ran').2.1]
  rintro ⟨-, -, -, same⟩
  revert same
  unfold Confused
  decide

/-- A document that names the empty account and one that names none. Both can be read, and their waivers
move one counter. -/
theorem attribution_evaluate_confused :
    let a : Authorizer := ⟨some (.steady fun _ => true)⟩
    let p : Policy := { skippedTypes := ["t"] }
    ∃ d d' e e' k, Document.parse "\x7b\"type\":\"t\",\"account\":\"\"\x7d" = .ok d ∧
      Document.parse "\x7b\"type\":\"t\",\"account\":null\x7d" = .ok d' ∧
      a.evaluate? (some d.operation) none p = some e ∧
      a.evaluate? (some d'.operation) none p = some e' ∧
      k ∈ e.counters ∧ k ∈ e'.counters ∧ k.name = "authorization.skipped" ∧
      d.named = some "" ∧ d'.named = none := by
  intro a p
  let d : Document := { type := "t", account := some (some "") }
  let d' : Document := { type := "t", account := some none }
  obtain ⟨e, ran⟩ : ∃ e, a.evaluate? (some d.operation) none p = some e := ⟨_, rfl⟩
  obtain ⟨e', ran'⟩ : ∃ e, a.evaluate? (some d'.operation) none p = some e := ⟨_, rfl⟩
  obtain ⟨moved, name⟩ := (mem_counters_skipped_iff ran _).2 ⟨by decide, rfl⟩
  obtain ⟨moved', -⟩ := (mem_counters_skipped_iff ran' _).2 ⟨by decide, rfl⟩
  exact ⟨d, d', e, e', _, eq_ok_of_toOption (by decide +kernel), eq_ok_of_toOption (by decide +kernel),
    ran, ran', moved, moved', name, rfl, rfl⟩

end Authorizer
end Clearance
