import Clearance.Operation.Document
import Clearance.Operation.Shipped
import Clearance.Proofs.Authorizer.Form

/-!
Operations that no evaluation can tell apart. Of an operation an evaluation sees its type, its account,
its applications, whether applications are expected, and whether the policy waives it; nothing else of
the operation or the policy has a say. So each operation that is known by type has documents that stand
for it.
-/
namespace Clearance

/-- One operation under one policy looks like the other under the other. -/
structure Operation.Alike (o : Operation) (p : Policy) (o' : Operation) (p' : Policy) : Prop where
  type : o.type = o'.type
  account : o.scope.bind (·.account) = o'.scope.bind (·.account)
  expectation : o.expectsApplications = o'.expectsApplications
  applications : o.applications = o'.applications
  owners : o.owners = o'.owners
  waiver : o.isWaived p = o'.isWaived p'

section Alike
variable {o o' : Operation} {p p' : Policy}

theorem Operation.Alike.form (h : o.Alike p o' p') : o.form p = o'.form p' := by
  have names : o.targets = o'.targets := by
    unfold targets
    rw [h.applications, h.owners]
  unfold Operation.form
  rw [h.type, h.waiver, h.account, h.expectation, names]

theorem Authorizer.evaluate_alike (h : o.Alike p o' p') (a : Authorizer)
    (identity : Option Identity) :
    a.evaluate (some o) identity p = a.evaluate (some o') identity p' :=
  evaluate_form h.form a identity

end Alike

/-- Waives one more type. -/
def Policy.skipping (p : Policy) (type : String) : Policy :=
  { p with skippedTypes := p.skippedTypes ++ [type] }

/-- The document that says of a security group what an evaluation sees of it. -/
def SecurityGroup.document (g : SecurityGroup) : Document where
  type := "UpsertSecurityGroupDescription"
  account := some g.account
  restriction := some false

def Termination.document (t : Termination) (restriction : Option Bool) : Document where
  type := "TerminateInstancesDescription"
  account := some t.account
  owners := some t.owners
  restriction := restriction

def ImageTags.document (t : ImageTags) (restriction : Option Bool) : Document where
  type := "UpsertImageTagsDescription"
  account := some t.account
  applications := some (some t.applications)
  restriction := restriction

/-- A document that does not say otherwise expects applications. -/
theorem getD_restriction {restriction : Option Bool} (h : restriction ≠ some false) :
    restriction.getD true = true := by
  cases restriction with
  | none => rfl
  | some b =>
    cases b with
    | false => exact absurd rfl h
    | true => rfl

theorem SecurityGroup.alike_document (g : SecurityGroup) (p : Policy) :
    g.operation.Alike p g.document.operation p :=
  ⟨rfl, rfl, rfl, rfl, rfl, rfl⟩

theorem Termination.alike_document (t : Termination) (p : Policy) {restriction : Option Bool}
    (h : restriction ≠ some false) :
    t.operation.Alike p (t.document restriction).operation p :=
  ⟨rfl, rfl, (getD_restriction h).symm, rfl, rfl, rfl⟩

/-- Only the list of accounts for tagging can make an image's tags another matter than the document. -/
theorem ImageTags.alike_document (t : ImageTags) {p p' : Policy} {restriction : Option Bool}
    (h : restriction ≠ some false)
    (waiver : t.operation.isWaived p = (t.document restriction).operation.isWaived p') :
    t.operation.Alike p (t.document restriction).operation p' :=
  ⟨rfl, rfl, (getD_restriction h).symm, rfl, rfl, waiver⟩

theorem ImageTags.isWaived_eq (t : ImageTags) (p : Policy) :
    t.operation.isWaived p = (p.skips t.operation.type || p.allowsTagging t.account) := by
  change (p.skips t.operation.type || !!p.allowsTagging t.account) = _
  rw [Bool.not_not]

theorem Document.isWaived_eq (d : Document) (p : Policy) :
    d.operation.isWaived p = (d.account.isSome && p.skips d.type) := by
  obtain ⟨type, account, applications, owners, restriction⟩ := d
  cases account with
  | none => rfl
  | some account => exact Bool.or_false _

theorem Policy.allowsTagging_eq_false {p : Policy} {account : Option String}
    (h : ∀ name, account = some name → name ∉ p.taggingAccounts) :
    p.allowsTagging account = false := by
  cases account with
  | none => rfl
  | some name => exact Bool.eq_false_iff.2 fun listed => h name rfl (List.contains_iff_mem.1 listed)

theorem Policy.skips_skipping (p : Policy) (type : String) : (p.skipping type).skips type = true :=
  List.contains_iff_mem.2 (List.mem_append_right _ (List.mem_singleton.2 rfl))

/-- An operation that is known by type can be given as a document, and whatever is asked, decided,
rejected, counted and logged is the same, with every authorizer and after everything that was on the
trail before. For the tags of an image in an account that the policy lists, the document takes the
waiver of its whole type in exchange. The names of an image and a security group and the identifiers of
instances are never looked at, nor is the list of accounts for tagging where documents are concerned. -/
theorem Authorizer.evaluate_document (a : Authorizer) (identity : Option Identity) (p : Policy) :
    (∀ g : SecurityGroup,
      a.evaluate (some g.operation) identity p = a.evaluate (some g.document.operation) identity p) ∧
    (∀ (t : Termination) (restriction : Option Bool), restriction ≠ some false →
      a.evaluate (some t.operation) identity p =
        a.evaluate (some (t.document restriction).operation) identity p) ∧
    (∀ (t : ImageTags) (restriction : Option Bool), restriction ≠ some false →
      ((∀ name, t.account = some name → name ∉ p.taggingAccounts) →
        a.evaluate (some t.operation) identity p =
          a.evaluate (some (t.document restriction).operation) identity p) ∧
      (∀ name, t.account = some name → name ∈ p.taggingAccounts →
        a.evaluate (some t.operation) identity p =
          a.evaluate (some (t.document restriction).operation) identity
            (p.skipping "UpsertImageTagsDescription"))) ∧
    (∀ (t : ImageTags) (image : String), a.evaluate (some t.operation) identity p =
      a.evaluate (some { t with imageName := image }.operation) identity p) ∧
    (∀ (g : SecurityGroup) (name : String), a.evaluate (some g.operation) identity p =
      a.evaluate (some { g with name := name }.operation) identity p) ∧
    (∀ (t : Termination) (ids : List String), a.evaluate (some t.operation) identity p =
      a.evaluate (some { t with instanceIds := ids }.operation) identity p) ∧
    ∀ (d : Document) (accounts : List String), a.evaluate (some d.operation) identity p =
      a.evaluate (some d.operation) identity { p with taggingAccounts := accounts } := by
  refine ⟨?_, ?_, ?_, fun _ _ => rfl, fun _ _ => rfl, fun _ _ => rfl, ?_⟩
  · intro g
    exact evaluate_alike (g.alike_document p) a identity
  · intro t restriction h
    exact evaluate_alike (t.alike_document p h) a identity
  · intro t restriction h
    constructor
    · intro unlisted
      refine evaluate_alike (t.alike_document h ?_) a identity
      rw [t.isWaived_eq, Document.isWaived_eq, Policy.allowsTagging_eq_false unlisted, Bool.or_false]
      rfl
    · intro name named listed
      have allowed : p.allowsTagging t.account = true := by
        rw [named]
        exact List.contains_iff_mem.2 listed
      refine evaluate_alike (t.alike_document h ?_) a identity
      rw [t.isWaived_eq, Document.isWaived_eq, allowed, Bool.or_true]
      exact (p.skips_skipping _).symm
  · intro d accounts
    refine evaluate_alike ⟨rfl, rfl, rfl, rfl, rfl, ?_⟩ a identity
    rw [Document.isWaived_eq, Document.isWaived_eq]
    rfl

/-- Tags of an image in a listed account, for which the account is skipped and both applications are
asked about, one in vain. -/
theorem Authorizer.evaluate_document_tags :
    let t : ImageTags := ⟨some "build", "base", [some "a", none, some "b"]⟩
    let p : Policy := { taggingAccounts := ["prod", "build"] }
    let a : Authorizer := ⟨some (.steady fun q => q.kind == .application && q.name != "b")⟩
    "build" ∈ p.taggingAccounts ∧ (some true : Option Bool) ≠ some false ∧
      ((a.evaluate (some (t.document (some true)).operation) none
          (p.skipping "UpsertImageTagsDescription")).run {}).1 =
        some ⟨none, true, [("a", true), ("b", false)], false⟩ := by
  intro t p a
  have listed : "build" ∈ p.taggingAccounts := by decide
  have restricted : (some true : Option Bool) ≠ some false := by decide
  refine ⟨listed, restricted, ?_⟩
  have same := ((evaluate_document a none p).2.2.1 t (some true) restricted).2 "build" rfl listed
  rw [← same]
  decide +kernel

end Clearance
