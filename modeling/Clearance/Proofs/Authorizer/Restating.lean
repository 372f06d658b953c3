import Mathlib.Logic.Relation
import Clearance.Operation.Document
import Clearance.Proofs.Authorizer.Form
import Clearance.Proofs.Authorizer.Summary
import Clearance.Proofs.Operation

/-!
Operations that name the same in other words. How the names are spread over the two lists, how often
they are repeated and which places are left open makes no difference to an evaluation. A document that
names no account is another matter with a null for it only if its type is waived.
-/
namespace Clearance
open Operation Authorizer

/-- What the capability of an operation within accounts answers under a policy. -/
def AccountScope.answers (s : AccountScope) (p : Policy) : Option String × Bool × Bool :=
  (s.account, s.expectsApplications, s.needsAuthorization p)

/-- Lists that name nothing. An empty list is one without any places. -/
inductive Names.Silent : Option Names → Prop where
  | absent : Silent none
  | null : Silent (some none)
  | vacant (n : Nat) : Silent (some (some (List.replicate n none)))

/-- The places of a list of names, the open ones among them. -/
def Names.places : Option Names → List (Option String)
  | some (some l) => l
  | _ => []

/-- One list of places says what another does with one place less: with an open place more, or with a
name that has come before. -/
inductive Restates : List (Option String) → List (Option String) → Prop where
  | opened (before after : List (Option String)) : Restates (before ++ after) (before ++ none :: after)
  | repeated {name : String} (before after : List (Option String)) : some name ∈ before →
    Restates (before ++ after) (before ++ some name :: after)

/-- The names in a list of places, each once. -/
def firstNames (l : List (Option String)) : List String := (l.filterMap id).eraseDups

theorem given_eq_places (l : Option Names) : given l = (Names.places l).filterMap id := by
  match l with
  | none => rfl
  | some none => rfl
  | some (some l) => rfl

theorem targets_eq_firstNames (o : Operation) :
    o.targets = firstNames (Names.places o.applications ++ Names.places o.owners) := by
  unfold targets firstNames
  rw [given_eq_places, given_eq_places, List.filterMap_append]

theorem Names.Silent.given_eq {l : Option Names} (h : Silent l) : given l = [] := by
  cases h with
  | absent => rfl
  | null => rfl
  | vacant n => simp [given]

section Restates
variable {l l' : List (Option String)}

theorem Restates.firstNames_eq (h : Restates l l') : firstNames l = firstNames l' := by
  unfold firstNames
  cases h with
  | opened before after => simp
  | repeated before after mem =>
    simp [List.eraseDups_append, List.removeAll, mem]

theorem Restates.concat (h : Restates l l') (place : Option String) :
    Restates (l ++ [place]) (l' ++ [place]) := by
  cases h with
  | opened before after =>
    rw [List.append_assoc, List.append_assoc]
    exact .opened before (after ++ [place])
  | repeated before after mem =>
    rw [List.append_assoc, List.append_assoc]
    exact .repeated before (after ++ [place]) mem

theorem restated_concat (h : Relation.EqvGen Restates l l') (place : Option String) :
    Relation.EqvGen Restates (l ++ [place]) (l' ++ [place]) := by
  induction h with
  | rel _ _ step => exact .rel _ _ (step.concat place)
  | refl _ => exact .refl _
  | symm _ _ _ ih => exact .symm _ _ ih
  | trans _ _ _ _ _ ih ih' => exact .trans _ _ _ ih ih'

/-- The list with one place for each name, and no other, says what the list does. -/
theorem restated_firstNames (l : List (Option String)) :
    Relation.EqvGen Restates ((firstNames l).map some) l := by
  induction l using List.reverseRecOn with
  | nil => exact .refl []
  | append_singleton l place ih =>
    -- the last place is kept if it brings a new name, and is dropped otherwise
    have dropped (step : Restates l (l ++ [place])) :
        Relation.EqvGen Restates ((firstNames (l ++ [place])).map some) (l ++ [place]) := by
      rw [← step.firstNames_eq]
      exact .trans _ _ _ ih (.rel _ _ step)
    have opened := Restates.opened l []
    rw [List.append_nil] at opened
    cases place with
    | none => exact dropped opened
    | some name =>
      by_cases old : some name ∈ l
      · have repeated := Restates.repeated l [] old
        rw [List.append_nil] at repeated
        exact dropped repeated
      · have new : name ∉ l.filterMap id := by simpa using old
        have kept : firstNames (l ++ [some name]) = firstNames l ++ [name] := by
          unfold firstNames
          rw [List.filterMap_append]
          exact (eraseDups_concat _ name).trans (if_neg new)
        rw [kept, List.map_append]
        exact restated_concat ih (some name)

/-- Open places and repeated names are all that can be added or taken away without another name, or
another order of the names, being said. -/
theorem restated_iff (l l' : List (Option String)) :
    Relation.EqvGen Restates l l' ↔ firstNames l = firstNames l' := by
  constructor
  · intro h
    induction h with
    | rel _ _ step => exact step.firstNames_eq
    | refl _ => rfl
    | symm _ _ _ ih => exact ih.symm
    | trans _ _ _ _ _ ih ih' => exact ih.trans ih'
  · intro same
    have whole := restated_firstNames l
    rw [same] at whole
    exact .trans _ _ _ (.symm _ _ whole) (restated_firstNames l')

end Restates

/-- Of equal type and with the same answers about the account, operations have one form as soon as the
same names are first seen in both. -/
theorem form_of_firstSeen {o o' : Operation} {p : Policy} {names : List String}
    (type : o.type = o'.type) (scope : o.scope.map (·.answers p) = o'.scope.map (·.answers p))
    (seen : FirstSeen o.mentioned names) (seen' : FirstSeen o'.mentioned names) :
    o.form p = o'.form p := by
  have targets : o.targets = o'.targets :=
    (o.targets_firstSeen.unique seen).trans (seen'.unique o'.targets_firstSeen)
  unfold form isWaived expectsApplications
  rw [type, targets]
  cases here : o.scope with
  | none =>
    rw [here, Option.map_none, eq_comm, Option.map_eq_none_iff] at scope
    rw [scope]
  | some answered =>
    rw [here, Option.map_some, eq_comm, Option.map_eq_some_iff] at scope
    obtain ⟨answered', there, same⟩ := scope
    obtain ⟨account, expected, needed⟩ : answered'.account = answered.account ∧
        answered'.expectsApplications = answered.expectsApplications ∧
        answered'.needsAuthorization p = answered.needsAuthorization p := by
      simpa [AccountScope.answers] using same
    rw [there]
    simp [account, expected, needed]

/-- With other lists an operation is evaluated alike if these give it the same targets. -/
theorem evaluate_lists (o : Operation) {applications owners applications' owners' : Option Names}
    (same : ({ o with applications := applications, owners := owners } : Operation).targets =
      ({ o with applications := applications', owners := owners' } : Operation).targets)
    (a : Authorizer) (identity : Option Identity) (p : Policy) :
    a.evaluate (some { o with applications := applications, owners := owners }) identity p =
      a.evaluate (some { o with applications := applications', owners := owners' }) identity p := by
  refine evaluate_form ?_ a identity
  unfold form
  rw [same]
  rfl

/-- What a waiver leaves behind where no account is named. -/
def namelessWaiver (type : String) : Trail where
  increments := [skippedCount type none]
  events := [.skipped type none]

section Nameless
variable (d : Document) (p : Policy)

/-- The document with a null for its account. -/
def Document.withNull : Document := { d with account := some none }

theorem Document.targets_withNull : d.withNull.operation.targets = d.operation.targets := rfl

theorem Document.checkedAccount_withNull : d.withNull.operation.checkedAccount p = none :=
  ite_self none

theorem waiver_withNull : waiver d.withNull.operation p =
    if d.type ∈ p.skippedTypes then namelessWaiver d.type else {} := by
  have waived : d.withNull.operation.isWaived p = decide (d.type ∈ p.skippedTypes) := by
    simp [isWaived, Document.withNull, Document.operation, Policy.skips]
  unfold waiver
  rw [waived]
  simp only [decide_eq_true_eq]
  rfl

variable {d} (nameless : d.account = none)
include nameless

theorem Document.scope_of_nameless : d.operation.scope = none := by
  unfold Document.operation
  rw [nameless]
  rfl

theorem waiver_of_nameless : waiver d.operation p = {} := by
  unfold waiver isWaived
  rw [d.scope_of_nameless nameless]
  rfl

end Nameless

/-- Where no account is checked, a waiver is all that sets operations of one type apart that name the same
applications. -/
theorem summary_of_unchecked {o o' : Operation} {p : Policy} (type : o.type = o'.type)
    (names : o.targets = o'.targets) (unchecked : o.checkedAccount p = none)
    (unchecked' : o'.checkedAccount p = none) (b : Backend) (identity : Option Identity)
    (before : List Call) :
    summaryDecision b o identity p before = summaryDecision b o' identity p before ∧
      ∃ rest, summaryTrail b o identity p before = waiver o p ++ rest ∧
        summaryTrail b o' identity p before = waiver o' p ++ rest := by
  have silent (o : Operation) : missing o none = {} := by
    unfold missing lonely
    cases o.expectsApplications && o.targets.isEmpty <;> rfl
  unfold summaryTrail summaryDecision applicationAnswers accountAnswers
  rw [unchecked, unchecked', type, names, silent, silent]
  simp only [Trail.append_assoc]
  exact ⟨trivial, _, rfl, rfl⟩

/-- With a null for its account in the place of none, a document takes no more than the waiver with it. -/
theorem evaluate_withNull {d : Document} (nameless : d.account = none) (a : Authorizer)
    (identity : Option Identity) (p : Policy) (s : Trail) :
    ∃ decision added,
      (a.evaluate (some d.operation) identity p).run s = (decision, s ++ added) ∧
      (a.evaluate (some d.withNull.operation) identity p).run s = (decision,
        s ++ if a.isEnabled = true ∧ d.type ∈ p.skippedTypes then namelessWaiver d.type ++ added
          else added) := by
  obtain ⟨backend⟩ := a
  cases backend with
  | none =>
    refine ⟨none, {}, ?_, ?_⟩
    · exact congrArg (Prod.mk none) s.append_empty.symm
    · rw [if_neg fun enabled => Bool.noConfusion enabled.1]
      exact congrArg (Prod.mk none) s.append_empty.symm
  | some b =>
    have unchecked : d.operation.checkedAccount p = none := by
      unfold checkedAccount
      rw [d.scope_of_nameless nameless]
      exact ite_self none
    have type : d.operation.type = d.withNull.operation.type := rfl
    obtain ⟨decision, rest, plain, withNull⟩ := summary_of_unchecked type d.targets_withNull.symm
      unchecked (d.checkedAccount_withNull p) b identity s.calls
    rw [waiver_of_nameless p nameless, Trail.empty_append] at plain
    rw [waiver_withNull] at withNull
    refine ⟨some (summaryDecision b d.operation identity p s.calls), rest, ?_, ?_⟩
    · rw [evaluate_run, plain]
    · rw [evaluate_run, withNull, decision]
      by_cases skipped : d.type ∈ p.skippedTypes <;> simp [isEnabled, skipped, Trail.empty_append]

/-- Only the normal form of an operation matters. Two of one type that answer the same about their account
and first name the same applications in the same order are asked about, decided, rejected, counted and
logged alike, with every authorizer and whatever is on the trail before. So lists that name nothing
are as good as each other, no open place or repeated name counts, and a name counts wherever it stands
in the two lists, as long as the order is kept. A document with a null for its account and one with
no account differ in the waiver alone, and only where the type is waived. -/
theorem Authorizer.evaluate_restated (a : Authorizer) (identity : Option Identity) (p : Policy) :
    (∀ (o o' : Operation) (names : List String), o.type = o'.type →
      o.scope.map (·.answers p) = o'.scope.map (·.answers p) →
      FirstSeen o.mentioned names → FirstSeen o'.mentioned names →
      a.evaluate (some o) identity p = a.evaluate (some o') identity p) ∧
    (∀ (o : Operation) (l l' : Option Names), Names.Silent l → Names.Silent l' →
      a.evaluate (some { o with applications := l }) identity p =
          a.evaluate (some { o with applications := l' }) identity p ∧
        a.evaluate (some { o with owners := l }) identity p =
          a.evaluate (some { o with owners := l' }) identity p) ∧
    (∀ (o : Operation) (applications owners applications' owners' : Option Names),
      Relation.EqvGen Restates (Names.places applications ++ Names.places owners)
        (Names.places applications' ++ Names.places owners') →
      a.evaluate (some { o with applications := applications, owners := owners }) identity p =
        a.evaluate (some { o with applications := applications', owners := owners' }) identity p) ∧
    (∀ (o : Operation) (before moved after : List (Option String)),
      a.evaluate (some { o with
          applications := some (some (before ++ moved)), owners := some (some after) }) identity p =
        a.evaluate (some { o with
          applications := some (some before), owners := some (some (moved ++ after)) }) identity p) ∧
    ∀ d : Document, d.account = none → ∀ s : Trail, ∃ decision added,
      (a.evaluate (some d.operation) identity p).run s = (decision, s ++ added) ∧
      (a.evaluate (some d.withNull.operation) identity p).run s = (decision,
        s ++ if a.isEnabled = true ∧ d.type ∈ p.skippedTypes then namelessWaiver d.type ++ added
          else added) := by
  have restated (o : Operation) (applications owners applications' owners' : Option Names)
      (same : Relation.EqvGen Restates (Names.places applications ++ Names.places owners)
        (Names.places applications' ++ Names.places owners')) :
      a.evaluate (some { o with applications := applications, owners := owners }) identity p =
        a.evaluate (some { o with applications := applications', owners := owners' }) identity p := by
    refine evaluate_lists o ?_ a identity p
    rw [targets_eq_firstNames, targets_eq_firstNames]
    exact (restated_iff _ _).1 same
  refine ⟨?_, ?_, restated, ?_, ?_⟩
  · intro o o' names type scope seen seen'
    exact evaluate_form (form_of_firstSeen type scope seen seen') a identity
  · intro o l l' silent silent'
    have same : given l = given l' := silent.given_eq.trans silent'.given_eq.symm
    constructor
    · refine evaluate_lists o ?_ a identity p
      unfold targets
      rw [same]
    · refine evaluate_lists o ?_ a identity p
      unfold targets
      rw [same]
  · intro o before moved after
    refine restated o _ _ _ _ ?_
    unfold Names.places
    rw [List.append_assoc]
    exact .refl _
  · intro d nameless s
    exact evaluate_withNull nameless a identity p s

/-- A backend that says no every other time. Names are moved, repeated and left open; in a waived type, a
null for the account is counted. -/
theorem Authorizer.evaluate_restated_null :
    let a : Authorizer := ⟨some fun before _ => before.length % 2 == 0⟩
    let p : Policy := { skippedTypes := ["t"] }
    let o : Operation :=
      { type := "u"
        scope := some { account := some "a" }
        applications := some (some [some "x", none, some "y"])
        owners := some (some [some "x"]) }
    let o' : Operation :=
      { o with applications := none, owners := some (some [some "x", some "x", some "y"]) }
    let d : Document := { type := "t", applications := some (some [some "x"]) }
    a.evaluate (some o) none p = a.evaluate (some o') none p ∧
      ((a.evaluate (some d.withNull.operation) none p).run {}).2.increments =
        skippedCount "t" none :: ((a.evaluate (some d.operation) none p).run {}).2.increments := by
  intro a p o o' d
  obtain ⟨forms, -, -, -, documents⟩ := evaluate_restated a none p
  have names : o.targets = ["x", "y"] := by decide +kernel
  have names' : o'.targets = ["x", "y"] := by decide +kernel
  constructor
  · exact forms o o' ["x", "y"] rfl rfl (names ▸ o.targets_firstSeen) (names' ▸ o'.targets_firstSeen)
  · obtain ⟨decision, added, plain, withNull⟩ := documents d rfl {}
    have skipped : a.isEnabled = true ∧ d.type ∈ p.skippedTypes := by decide
    rw [plain, withNull, if_pos skipped]
    rfl

end Clearance
