import Mathlib.Data.List.Basic
import Clearance.Proofs.Authorizer.Calls
import Clearance.Proofs.Authorizer.Steady
import Clearance.Proofs.Counter.Registry
import Clearance.Proofs.Grants

/-!
What grants do to an evaluation. More of them only ever take rejections away. Of a whole table it is a few
entries that matter: the caller's own, for the wildcard and for the names of the operation, and of these
whether they let it write.
-/
namespace Clearance

def GrantTable.answer (t : GrantTable) (q : Question) : Bool :=
  t.allows q.identity q.kind q.name q.level

/-- The names that an operation is checked by, the wildcard among them. -/
def Operation.Concerns (o : Operation) (k : Kind) (name : String) : Prop :=
  name = "*" ∨
    match k with
    | .account => o.scope.bind (·.account) = some name
    | .application => name ∈ o.mentioned

/-- On what an operation is checked by, both tables let a principal write, or neither does. -/
def GrantTable.Agree (t t' : GrantTable) (o : Operation) (principal : String) : Prop :=
  ∀ k name, o.Concerns k name →
    (t.held principal k name).write = (t'.held principal k name).write

theorem Operation.concerns_of_checkedAccount {o : Operation} {p : Policy} {account : String}
    (checked : o.checkedAccount p = some account) : o.Concerns .account account := by
  obtain ⟨scope, at_scope, named, _⟩ := (o.checkedAccount_eq_some_iff p account).1 checked
  refine .inr ?_
  dsimp only
  rw [at_scope]
  exact named

theorem Operation.concerns_of_mem_targets {o : Operation} {name : String} (mem : name ∈ o.targets) :
    o.Concerns .application name :=
  .inr ((o.targets_firstSeen.mem name).1 mem)

theorem GrantTable.Agree.answer_eq {t t' : GrantTable} {o : Operation} {i : Identity}
    (agree : t.Agree t' o i.principal) {k : Kind} {name : String} (concerned : o.Concerns k name) :
    t.answer (Authorizer.question (some i) k name) =
      t'.answer (Authorizer.question (some i) k name) := by
  have write : ∀ s : Levels, s.allows .write = s.write := fun s => Bool.or_false s.write
  unfold GrantTable.answer Authorizer.question
  rw [GrantTable.allows_some, GrantTable.allows_some]
  simp only [write]
  rw [agree k name concerned, agree k "*" (.inl rfl)]

namespace Authorizer
variable (answer answer' : Question → Bool) (o : Operation) (identity : Option Identity) (p : Policy)

theorem requests_settled :
    (settled answer o identity p).calls.map Call.request =
      (settled answer' o identity p).calls.map Call.request := by
  have first := requests_summary (.steady answer) o identity p []
  have second := requests_summary (.steady answer') o identity p []
  rw [summaryTrail_steady] at first second
  exact first.trans second.symm

theorem asked_checked {type : String} {k : Kind} {names : List String} {q : Question} {reply : Bool}
    (mem : .asked q reply ∈ (checked type identity k (replies answer identity k names)).calls) :
    q.identity = identity ∧ reply = answer q := by
  obtain ⟨_, replied, same⟩ := List.mem_map.1 mem
  obtain ⟨name, _, rfl⟩ := List.mem_map.1 replied
  cases same
  exact ⟨rfl, rfl⟩

theorem asked_settled {q : Question} {reply : Bool}
    (mem : .asked q reply ∈ (settled answer o identity p).calls) :
    q.identity = identity ∧ reply = answer q := by
  rcases List.mem_append.1 mem with mem | mem
  · rcases List.mem_append.1 mem with mem | mem
    · exact asked_checked answer identity mem
    · unfold hinted at mem
      split at mem <;> simp at mem
  · exact asked_checked answer identity mem

/-- Only the count of the outcome depends on the answers. -/
theorem count_settled (r : Counter.Registry) {i : Increment} (other : i.name ≠ "authorization") :
    (r.apply (settled answer o identity p).increments).count i =
      (r.apply ((waiver o p).increments ++ (missing o (o.checkedAccount p)).increments)).count i := by
  have apart : ∀ b, (outcomeCount o.type b).key ≠ i.key :=
    fun b same => other (congrArg Counter.Key.name same).symm
  unfold Counter.Registry.count settled
  rw [Counter.Registry.value_apply, Counter.Registry.value_apply, List.map_append, List.count_append,
    List.map_singleton, List.count_singleton, beq_eq_false_iff_ne.2 (apart _)]
  rfl

section More
variable {answer answer'} (more : ∀ q, answer q = true → answer' q = true)
include more

theorem denials_sublist_of_more (k : Kind) (names : List String) :
    (denials (replies answer' identity k names)).Sublist (denials (replies answer identity k names)) := by
  rw [denials_replies, denials_replies]
  refine List.monotone_filter_right names ?_
  intro name denied
  rw [Bool.not_eq_true', Bool.eq_false_iff] at denied ⊢
  exact fun allowed => denied (more _ allowed)

theorem rejections_sublist_of_more :
    (settled answer' o identity p).rejections.Sublist (settled answer o identity p).rejections :=
  ((denials_sublist_of_more identity more .account _).map _).append
    ((denials_sublist_of_more identity more .application _).map _)

theorem all_replies_of_more (k : Kind) (names : List String)
    (all : (replies answer identity k names).all (·.2) = true) :
    (replies answer' identity k names).all (·.2) = true := by
  rw [all_replies, List.all_eq_true] at all ⊢
  exact fun name mem => more _ (all name mem)

theorem allowed_of_more (allowed : (settled answer o identity p).decision.allowed = true) :
    (settled answer' o identity p).decision.allowed = true := by
  obtain ⟨account, applications⟩ := Bool.and_eq_true_iff.1 allowed
  exact Bool.and_eq_true_iff.2 ⟨all_replies_of_more identity more .account _ account,
    all_replies_of_more identity more .application _ applications⟩

end More

theorem settled_congr_answers
    (accounts : ∀ name, o.checkedAccount p = some name →
      answer (question identity .account name) = answer' (question identity .account name))
    (applications : ∀ name ∈ o.targets,
      answer (question identity .application name) = answer' (question identity .application name)) :
    settled answer o identity p = settled answer' o identity p := by
  have same_accounts : accountReplies answer o identity p = accountReplies answer' o identity p :=
    List.map_congr_left fun name mem =>
      congrArg (name, ·) (accounts name (Option.mem_toList.1 mem))
  have same_applications : applicationReplies answer o identity = applicationReplies answer' o identity :=
    List.map_congr_left fun name mem => congrArg (name, ·) (applications name mem)
  unfold settled settledDecision
  rw [same_accounts, same_applications]

theorem settled_congr_tables {t t' : GrantTable} (agree : ∀ i ∈ identity, t.Agree t' o i.principal) :
    settled t.answer o identity p = settled t'.answer o identity p := by
  cases identity with
  | none => rfl
  | some i =>
    refine settled_congr_answers t.answer t'.answer o (some i) p ?_ ?_
    · intro name checked
      exact (agree i rfl).answer_eq (Operation.concerns_of_checkedAccount checked)
    · intro name mem
      exact (agree i rfl).answer_eq (Operation.concerns_of_mem_targets mem)

/-- With more grants nothing that was allowed is denied. An evaluation loses rejections and gains none,
and whatever the grants, it asks the same and counts the same, its outcome apart. -/
theorem evaluate_receiveAll (t : GrantTable) (gs : List Grant) (o : Operation)
    (identity : Option Identity) (p : Policy) :
    (∀ i k name l, t.allows i k name l = true → (t.receiveAll gs).allows i k name l = true) ∧
      ∃ e e', Yields ⟨some t.backend⟩ o identity p e ∧
        Yields ⟨some (t.receiveAll gs).backend⟩ o identity p e' ∧
        e'.rejections.Sublist e.rejections ∧
        (e.decision.allowed = true → e'.decision.allowed = true) ∧
        e'.decision.account = e.decision.account ∧
        e'.calls.map Call.request = e.calls.map Call.request ∧
        e'.decision.applications.map Prod.fst = e.decision.applications.map Prod.fst ∧
        ∀ (r : Counter.Registry) (i : Increment),
          i.name = "authorization.skipped" ∨ i.name = "authorization.missingApplication" →
            (r.apply e'.increments).count i = (r.apply e.increments).count i := by
  have more : ∀ i k name l, t.allows i k name l = true →
      (t.receiveAll gs).allows i k name l = true :=
    fun _ _ _ _ before => t.allows_of_allows gs before
  have answers_more : ∀ q, t.answer q = true → (t.receiveAll gs).answer q = true :=
    fun q => more q.identity q.kind q.name q.level
  refine ⟨more, _, _, yields_settled t.answer o identity p,
    yields_settled (t.receiveAll gs).answer o identity p, ?_, ?_, rfl, ?_, ?_, ?_⟩
  · exact rejections_sublist_of_more o identity p answers_more
  · exact allowed_of_more o identity p answers_more
  · exact requests_settled _ _ o identity p
  · exact (replies_names _ identity .application o.targets).trans
      (replies_names _ identity .application o.targets).symm
  · intro r i counted
    have other : i.name ≠ "authorization" := by
      rcases counted with name | name <;> rw [name] <;> decide
    rw [count_settled _ o identity p r other, count_settled _ o identity p r other]

/-- Two tables that let the caller write to the same of what the operation is checked by cannot be told
apart. So an entry may be changed at will, or made without any levels, unless it is the caller's own,
about one of those names, and lets it write or no longer does. Without an identity every answer is a
denial. -/
theorem evaluate_of_agree (o : Operation) (identity : Option Identity) (p : Policy) :
    (∀ t t' : GrantTable, (∀ i ∈ identity, t.Agree t' o i.principal) → ∀ s : Trail,
      ((⟨some t.backend⟩ : Authorizer).evaluate (some o) identity p).run s =
        ((⟨some t'.backend⟩ : Authorizer).evaluate (some o) identity p).run s) ∧
    (∀ (t : GrantTable) (principal : String) (k : Kind) (name : String) (levels : Levels),
      (∀ i ∈ identity, i.principal = principal → o.Concerns k name →
        levels.write = (t.held principal k name).write) → ∀ s : Trail,
      ((⟨some (t.enter principal k name levels).backend⟩ : Authorizer).evaluate (some o) identity p).run
          s = ((⟨some t.backend⟩ : Authorizer).evaluate (some o) identity p).run s) ∧
    (identity = none → ∀ (t : GrantTable) (s : Trail), ∃ made,
      (((⟨some t.backend⟩ : Authorizer).evaluate (some o) identity p).run s).2.calls =
        s.calls ++ made ∧ ∀ q reply, .asked q reply ∈ made → reply = false) := by
  have tables : ∀ t t' : GrantTable, (∀ i ∈ identity, t.Agree t' o i.principal) → ∀ s : Trail,
      ((⟨some t.backend⟩ : Authorizer).evaluate (some o) identity p).run s =
        ((⟨some t'.backend⟩ : Authorizer).evaluate (some o) identity p).run s := by
    intro t t' agree s
    refine (yields_settled t.answer o identity p s).trans ?_
    rw [settled_congr_tables o identity p agree]
    exact (yields_settled t'.answer o identity p s).symm
  refine ⟨tables, ?_, ?_⟩
  · intro t principal k name levels unchanged
    refine tables _ _ ?_
    intro i caller k' name' concerned
    rw [GrantTable.held_enter]
    split
    · rename_i here
      obtain ⟨principals, rfl, rfl⟩ := here
      rw [unchanged i caller principals concerned, principals]
    · rfl
  · intro absent t s
    refine ⟨(settled t.answer o identity p).calls, ?_, ?_⟩
    · exact congrArg (·.2.calls) (yields_settled t.answer o identity p s)
    · intro q reply mem
      obtain ⟨caller, replied⟩ := asked_settled t.answer o identity p mem
      rw [replied, GrantTable.answer, caller, absent]
      rfl

/-- A principal with the wildcard's name, a level that is not `write`, another kind and another name: none
of these grants makes a difference to the caller. -/
theorem evaluate_of_agree_clutter :
    let o : Operation :=
      { type := "Deploy", scope := some { account := some "prod" }, applications := some (some [some "a"]) }
    let t := ({} : GrantTable).receiveAll [⟨"alice", .account, "prod", .write⟩]
    let t' := t.receiveAll [⟨"*", .application, "*", .write⟩, ⟨"alice", .application, "a", .execute⟩,
      ⟨"alice", .account, "a", .write⟩, ⟨"alice", .application, "b", .write⟩]
    t ≠ t' ∧ t.Agree t' o "alice" ∧ ∀ s : Trail,
      ((⟨some t.backend⟩ : Authorizer).evaluate (some o) (some ⟨"alice"⟩) {}).run s =
        ((⟨some t'.backend⟩ : Authorizer).evaluate (some o) (some ⟨"alice"⟩) {}).run s := by
  intro o t t'
  have agree : t.Agree t' o "alice" := by
    rintro (_ | _) name (rfl | named)
    · decide +kernel
    · obtain rfl : "prod" = name := Option.some.inj named
      decide +kernel
    · decide +kernel
    · obtain rfl : name = "a" := List.mem_singleton.1 named
      decide +kernel
  refine ⟨by decide +kernel, agree, (evaluate_of_agree o (some ⟨"alice"⟩) {}).1 t t' ?_⟩
  rintro i ⟨⟩
  exact agree

end Authorizer
end Clearance
