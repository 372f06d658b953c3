import Clearance.Batch
import Clearance.Proofs.Authorizer.Steady
import Clearance.Proofs.Counter.Tally

/-!
Batches of checks. Grants answer a question always in the same way, so each check comes to what it would
come to alone. A check that fails leaves the journal as it is, and the counters do not tell in which
order the others were made.
-/
namespace Clearance

/-- The trail of what was evaluated, if anything was. -/
def Outcome.trail (o : Outcome) : Trail := (o.evaluation.map Evaluation.trail).getD {}

namespace Authorizer

/-- There is no backend, or its answers depend on nothing but the question. -/
inductive Steady : Authorizer → Prop where
  | disabled : Steady ⟨none⟩
  | steady (answer : Question → Bool) : Steady ⟨some (.steady answer)⟩

theorem steady_authorizer (s : Settings) (grants : Option GrantTable) :
    (s.authorizer grants).1.Steady := by
  unfold Settings.authorizer
  split
  · exact .steady _
  · exact .disabled

/-- Whatever the trail holds already, an evaluation comes to what it comes to alone. -/
theorem Steady.evaluate_run {a : Authorizer} (h : a.Steady) (o : Operation)
    (identity : Option Identity) (p : Policy) (t : Trail) :
    (a.evaluate (some o) identity p).run t =
      ((a.evaluate? (some o) identity p).map (·.decision),
        t ++ Outcome.trail ⟨a.evaluate? (some o) identity p⟩) := by
  cases h with
  | disabled => exact congrArg (Prod.mk none) t.append_empty.symm
  | steady answer =>
    rw [evaluate?_steady]
    exact yields_settled answer o identity p t

end Authorizer

/-- What a check comes to that is the only one. -/
def Authorizer.checkAlone (a : Authorizer) (s : Settings) (x : Inquiry) :
    Except Document.Error Outcome :=
  Clearance.check a s x.document x.principal

def Inquiry.isReadable (x : Inquiry) : Bool := (Document.parse x.document).isOk

namespace Authorizer
variable (a : Authorizer) (s : Settings)

theorem checkAlone_eq_error_iff (x : Inquiry) (e : Document.Error) :
    a.checkAlone s x = .error e ↔ Document.parse x.document = .error e := by
  unfold checkAlone Clearance.check
  cases Document.parse x.document <;> simp [bind, Except.bind]

theorem isOk_checkAlone (x : Inquiry) : (a.checkAlone s x).isOk = x.isReadable := by
  unfold checkAlone Clearance.check Inquiry.isReadable
  cases Document.parse x.document <;> rfl

theorem filter_checkAlone (xs : List Inquiry) : (xs.map (a.checkAlone s)).filter (·.isOk) =
    (xs.filter Inquiry.isReadable).map (a.checkAlone s) := by
  have same : (fun r => r.isOk) ∘ a.checkAlone s = Inquiry.isReadable :=
    funext fun x => a.isOk_checkAlone s x
  rw [List.filter_map, same]

end Authorizer

namespace Journal

/-- An outcome goes after whatever there is already; an error leaves the journal as it is. -/
def enter (j : Journal) : Except Document.Error Outcome → Journal
  | .error _ => j
  | .ok o =>
    { registry := j.registry.apply o.trail.increments
      calls := j.calls ++ o.trail.calls
      events := j.events ++ o.trail.events }

def counted : Except Document.Error Outcome → List Increment
  | .error _ => []
  | .ok o => o.trail.increments

variable (j : Journal) (rs : List (Except Document.Error Outcome))

theorem foldl_enter_filter : (rs.filter (·.isOk)).foldl enter j = rs.foldl enter j := by
  induction rs generalizing j with
  | nil => rfl
  | cons r rs ih =>
    cases r with
    | error e => exact ih j
    | ok o => exact ih (j.enter (.ok o))

theorem registry_foldl_enter :
    (rs.foldl enter j).registry = j.registry.apply (rs.flatMap counted) := by
  induction rs generalizing j with
  | nil => rfl
  | cons r rs ih =>
    rw [List.foldl_cons, ih, List.flatMap_cons]
    cases r with
    | error e => rfl
    | ok o => exact List.foldl_append.symm

end Journal

namespace Authorizer
variable {a : Authorizer} (steady : a.Steady) (s : Settings)
include steady

theorem checkNext_run (x : Inquiry) (j : Journal) :
    (a.checkNext s x).run j = (a.checkAlone s x, j.enter (a.checkAlone s x)) := by
  unfold checkNext checkAlone Clearance.check
  cases Document.parse x.document with
  | error e => rfl
  | ok d =>
    have evaluated := steady.evaluate_run d.operation (some (caller x.principal)) s.security
      { calls := j.calls, events := j.events }
    simp only [StateT.run, bind, Except.bind] at evaluated ⊢
    rw [evaluated]
    cases a.evaluate? (some d.operation) (some (caller x.principal)) s.security with
    | none => simp [Journal.enter, Outcome.trail, Counter.Registry.apply]
    | some ev => simp [Journal.enter, Outcome.trail, Evaluation.trail]

theorem checkAll_run (xs : List Inquiry) (j : Journal) : (a.checkAll s xs).run j =
    (xs.map (a.checkAlone s), (xs.map (a.checkAlone s)).foldl Journal.enter j) := by
  unfold checkAll
  induction xs generalizing j with
  | nil => rfl
  | cons x xs ih =>
    rw [List.mapM_cons, StateT.run_bind, checkNext_run steady]
    change ((_ >>= _ : StateM Journal _).run _) = _
    rw [StateT.run_bind, ih]
    rfl

/-- Checks that fail may be put in or left out anywhere. -/
theorem checkAll_of_filter {xs ys : List Inquiry}
    (same : xs.filter Inquiry.isReadable = ys.filter Inquiry.isReadable) (j : Journal) :
    ((a.checkAll s xs).run j).1.filter (·.isOk) = ((a.checkAll s ys).run j).1.filter (·.isOk) ∧
      ((a.checkAll s xs).run j).2 = ((a.checkAll s ys).run j).2 := by
  have outcomes : (xs.map (a.checkAlone s)).filter (·.isOk) =
      (ys.map (a.checkAlone s)).filter (·.isOk) := by
    rw [filter_checkAlone, filter_checkAlone, same]
  rw [checkAll_run steady, checkAll_run steady]
  refine ⟨outcomes, ?_⟩
  calc (xs.map (a.checkAlone s)).foldl Journal.enter j
      = ((xs.map (a.checkAlone s)).filter (·.isOk)).foldl Journal.enter j :=
        (j.foldl_enter_filter _).symm
    _ = ((ys.map (a.checkAlone s)).filter (·.isOk)).foldl Journal.enter j := by rw [outcomes]
    _ = (ys.map (a.checkAlone s)).foldl Journal.enter j := j.foldl_enter_filter _

/-- In another order each inquiry has the outcome that it had, and the counters are the same. -/
theorem checkAll_perm {xs ys : List Inquiry} (perm : xs.Perm ys) (j : Journal) :
    (xs.zip ((a.checkAll s xs).run j).1).Perm (ys.zip ((a.checkAll s ys).run j).1) ∧
      ((a.checkAll s xs).run j).2.registry = ((a.checkAll s ys).run j).2.registry := by
  rw [checkAll_run steady, checkAll_run steady]
  constructor
  · rw [← List.map_prod_left_eq_zip, ← List.map_prod_left_eq_zip]
    exact perm.map _
  · rw [Journal.registry_foldl_enter, Journal.registry_foldl_enter]
    exact j.registry.apply_perm ((perm.map _).flatMap_right _)

end Authorizer

/-- A check fails exactly if its document cannot be read, and then it leaves no trace. Each of the others
comes to what it comes to alone. -/
theorem checks_batch (s : Settings) (grants : Option GrantTable) :
    let a := (s.authorizer grants).1
    (∀ x j, (∃ e, ((a.checkNext s x).run j).1 = .error e) ↔
      ∃ e, Document.parse x.document = .error e) ∧
    (∀ x j e, ((a.checkNext s x).run j).1 = .error e → ((a.checkNext s x).run j).2 = j) ∧
    (∀ xs j, ((a.checkAll s xs).run j).1 = xs.map (a.checkAlone s)) ∧
    (∀ xs ys j, xs.filter Inquiry.isReadable = ys.filter Inquiry.isReadable →
      ((a.checkAll s xs).run j).1.filter (·.isOk) = ((a.checkAll s ys).run j).1.filter (·.isOk) ∧
        ((a.checkAll s xs).run j).2 = ((a.checkAll s ys).run j).2) ∧
    ∀ xs ys j, xs.Perm ys →
      (xs.zip ((a.checkAll s xs).run j).1).Perm (ys.zip ((a.checkAll s ys).run j).1) ∧
        ((a.checkAll s xs).run j).2.registry = ((a.checkAll s ys).run j).2.registry := by
  have steady := Authorizer.steady_authorizer s grants
  refine ⟨?_, ?_, ?_, ?_, ?_⟩
  · intro x j
    rw [Authorizer.checkNext_run steady]
    exact exists_congr fun e => Authorizer.checkAlone_eq_error_iff _ s x e
  · intro x j e failed
    rw [Authorizer.checkNext_run steady] at failed ⊢
    exact congrArg j.enter failed
  · intro xs j
    rw [Authorizer.checkAll_run steady]
  · exact fun xs ys j same => Authorizer.checkAll_of_filter steady s same j
  · exact fun xs ys j perm => Authorizer.checkAll_perm steady s perm j

end Clearance
