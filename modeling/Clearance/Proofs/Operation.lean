import Mathlib.Data.List.Induction
import Clearance.Operation

/-!
What of an operation is to be checked, said without the functions that find it: the account unless it
is waived, and the named applications in the order of their first names.
-/
namespace Clearance

/-- The names of a list, each once, in the order in which they are first seen. -/
structure FirstSeen (given l : List String) : Prop where
  mem : ∀ name, name ∈ l ↔ name ∈ given
  ordered : l.Pairwise fun a b => given.idxOf a < given.idxOf b

theorem FirstSeen.nodup {given l : List String} (h : FirstSeen given l) : l.Nodup := by
  refine h.ordered.imp ?_
  intro a b hab he
  exact absurd (he ▸ hab) (Nat.lt_irrefl _)

/-- There is only one such list. -/
theorem FirstSeen.unique {given l l' : List String} (h : FirstSeen given l) (h' : FirstSeen given l') :
    l = l' := by
  have perm : l.Perm l' := (List.perm_ext_iff_of_nodup h.nodup h'.nodup).2 fun name =>
    (h.mem name).trans (h'.mem name).symm
  refine List.Perm.eq_of_pairwise ?_ h.ordered h'.ordered perm
  intro a b _ _ before after
  exact absurd before (Nat.lt_asymm after)

theorem eraseDups_concat (given : List String) (name : String) :
    (given ++ [name]).eraseDups =
      if name ∈ given then given.eraseDups else given.eraseDups ++ [name] := by
  rw [List.eraseDups_append]
  by_cases h : name ∈ given <;> simp [List.removeAll, List.eraseDups_cons, h]

theorem firstSeen_eraseDups (given : List String) : FirstSeen given given.eraseDups := by
  refine ⟨fun _ => List.mem_eraseDups, ?_⟩
  induction given using List.reverseRecOn with
  | nil => exact .nil
  | append_singleton given name ih =>
    have old : given.eraseDups.Pairwise fun a b =>
        (given ++ [name]).idxOf a < (given ++ [name]).idxOf b := by
      refine ih.imp_of_mem ?_
      intro a b ha hb hab
      rw [List.mem_eraseDups] at ha hb
      simpa only [List.idxOf_append, if_pos ha, if_pos hb] using hab
    rw [eraseDups_concat]
    split
    · exact old
    · rename_i new
      refine List.pairwise_append.2 ⟨old, List.pairwise_singleton _ _, ?_⟩
      intro a ha b hb
      rw [List.mem_eraseDups] at ha
      rw [List.mem_singleton.1 hb, List.idxOf_append, List.idxOf_append, if_pos ha, if_neg new]
      exact Nat.lt_of_lt_of_le (List.idxOf_lt_length_of_mem ha) (Nat.le_add_left _ _)

namespace Operation

def mentioned (o : Operation) : List String := given o.applications ++ given o.owners

/-- A waiver of the operation's type, or one of its own. -/
def Waived (o : Operation) (p : Policy) : Prop :=
  ∃ scope, o.scope = some scope ∧ (o.type ∈ p.skippedTypes ∨ scope.needsAuthorization p = false)

/-- The account is named, and no waiver takes it out. -/
def ChecksAccount (o : Operation) (p : Policy) (account : String) : Prop :=
  ∃ scope, o.scope = some scope ∧ scope.account = some account ∧
    o.type ∉ p.skippedTypes ∧ scope.needsAuthorization p = true

/-- The account is checked for an operation that should name applications, but names none. -/
def MissesApplications (o : Operation) (p : Policy) (account : String) : Prop :=
  o.ChecksAccount p account ∧ o.expectsApplications = true ∧ o.mentioned = []

theorem isWaived_iff (o : Operation) (p : Policy) : o.isWaived p = true ↔ o.Waived p := by
  unfold isWaived Waived
  cases o.scope with
  | none => simp
  | some scope => simp [Policy.skips]

instance (o : Operation) (p : Policy) : Decidable (o.Waived p) :=
  decidable_of_iff _ (o.isWaived_iff p)

theorem checkedAccount_of_isWaived {o : Operation} {p : Policy} (waived : o.isWaived p = true) :
    o.checkedAccount p = none := if_pos waived

theorem checkedAccount_eq_some_iff (o : Operation) (p : Policy) (account : String) :
    o.checkedAccount p = some account ↔ o.ChecksAccount p account := by
  unfold checkedAccount isWaived ChecksAccount
  cases o.scope with
  | none => simp
  | some scope =>
    by_cases skipped : o.type ∈ p.skippedTypes <;>
      cases needed : scope.needsAuthorization p <;> simp [Policy.skips, skipped, needed]

theorem not_checksAccount_of_waived {o : Operation} {p : Policy} {account : String}
    (waived : o.Waived p) : ¬ o.ChecksAccount p account := by
  rintro ⟨scope, hs, _, listed, needed⟩
  obtain ⟨scope', hs', h⟩ := waived
  obtain rfl : scope = scope' := Option.some.inj (hs.symm.trans hs')
  rcases h with h | h
  · exact listed h
  · exact absurd (needed.symm.trans h) (by decide)

theorem targets_firstSeen (o : Operation) : FirstSeen o.mentioned o.targets :=
  firstSeen_eraseDups _

theorem targets_eq_nil_iff (o : Operation) : o.targets = [] ↔ o.mentioned = [] := by
  simp only [List.eq_nil_iff_forall_not_mem, o.targets_firstSeen.mem]

end Operation
end Clearance
