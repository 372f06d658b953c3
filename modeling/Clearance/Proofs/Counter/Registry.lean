import Clearance.Counter.Shared
import Clearance.Proofs.Table
import Mathlib.Algebra.Order.BigOperators.Group.List
import Mathlib.Algebra.Order.Ring.Nat
import Mathlib.Data.List.Perm.Subperm

/-!
Counters by name and labels. The order in which labels are given does not matter, and an increment,
whichever of its steps adds, moves its own counter by one and no other.
-/
namespace Clearance

instance : Std.LawfulEqOrd Label where
  eq_of_compare {a b} h := by
    obtain ⟨keys, values⟩ := Ordering.then_eq_eq.1 h
    have hk := Std.LawfulEqOrd.eq_of_compare keys
    have hv := Std.LawfulEqOrd.eq_of_compare values
    cases a
    cases b
    cases hk
    cases hv
    rfl

namespace Counter

instance : Std.LawfulEqOrd Key where
  eq_of_compare {a b} h := by
    obtain ⟨names, labels⟩ := Ordering.then_eq_eq.1 h
    have hn := Std.LawfulEqOrd.eq_of_compare names
    have hl := Std.LawfulEqOrd.eq_of_compare labels
    cases a
    cases b
    cases hn
    cases hl
    rfl

end Counter

theorem sorted_labels (i : Increment) :
    i.key.labels.Pairwise fun a b => (compare a b).isLE = true := by
  apply List.pairwise_mergeSort
  · intro a b c
    exact Std.TransOrd.isLE_trans
  · intro a b
    rw [← Std.OrientedCmp.isGE_eq_isLE]
    cases compare b a <;> rfl

/-- Increments are of one counter exactly if they agree on the name and, up to order, on the labels. -/
theorem Increment.key_eq_iff (i j : Increment) :
    i.key = j.key ↔ i.name = j.name ∧ i.labels.Perm j.labels := by
  have sorted : ∀ l : Increment, l.key.labels.Perm l.labels := fun l => List.mergeSort_perm _ _
  constructor
  · intro h
    have same : i.key.labels = j.key.labels := congrArg Counter.Key.labels h
    exact ⟨congrArg Counter.Key.name h, (sorted i).symm.trans (same ▸ sorted j)⟩
  · rintro ⟨names, labels⟩
    have same : i.key.labels = j.key.labels := by
      refine List.Perm.eq_of_pairwise ?_ (sorted_labels i) (sorted_labels j)
        ((sorted i).trans (labels.trans (sorted j).symm))
      intro a b _ _ h h'
      exact Std.LawfulEqOrd.eq_of_compare (Std.OrientedCmp.isLE_antisymm h h')
    exact (Counter.Key.mk.injEq _ _ _ _).mpr ⟨names, same⟩

/-- The order in which labels are given does not matter. -/
def Increment.SameCounter (i j : Increment) : Prop := i.name = j.name ∧ i.labels.Perm j.labels

instance (i : Increment) : DecidablePred i.SameCounter :=
  fun _ => inferInstanceAs (Decidable (_ ∧ _))

namespace Counter

theorem count_keys (i : Increment) (l : List Increment) :
    (l.map Increment.key).count i.key = l.countP i.SameCounter := by
  rw [List.count_eq_countP, List.countP_map]
  refine List.countP_congr ?_
  intro j _
  have same : j.key = i.key ↔ i.SameCounter j := eq_comm.trans (Increment.key_eq_iff i j)
  simpa using same

namespace Registry

/-- One is added to a counter, which is there from then on. All others stay as they are. -/
def Adds (r : Registry) (k : Key) (r' : Registry) : Prop :=
  ∀ k', r'.counts.get? k' = if k' = k then some (r.value k + 1) else r.counts.get? k'

theorem adds_of_bump? {r r' : Registry} {k : Key} (h : r.bump? k = some r') : r.Adds k r' := by
  obtain ⟨n, found, rfl⟩ := Option.map_eq_some_iff.1 h
  intro k'
  rw [Table.get?_put, value, found]
  rfl

theorem mem_keys_of_bump? {r r' : Registry} {k : Key} (h : r.bump? k = some r') :
    k ∈ r.counts.keys := by
  obtain ⟨n, found, -⟩ := Option.map_eq_some_iff.1 h
  exact (Table.mem_keys_iff r.counts k).2 ⟨n, found⟩

theorem adds_insertBump (r : Registry) (k : Key) : r.Adds k (r.insertBump k) :=
  fun k' => Table.get?_put r.counts k k' _

theorem adds_increment (r : Registry) (i : Increment) : r.Adds i.key (r.increment i) := by
  unfold increment
  cases h : r.bump? i.key with
  | none => exact adds_insertBump r i.key
  | some r' => exact adds_of_bump? h

theorem Adds.value {r r' : Registry} {k : Key} (h : r.Adds k r') (k' : Key) :
    r'.value k' = r.value k' + if k' = k then 1 else 0 := by
  unfold Registry.value
  rw [h k']
  split
  · rename_i same
    rw [same]
    rfl
  · rfl

theorem Adds.mem_keys_iff {r r' : Registry} {k : Key} (h : r.Adds k r') (k' : Key) :
    k' ∈ r'.counts.keys ↔ k' = k ∨ k' ∈ r.counts.keys := by
  rw [Table.mem_keys_iff, Table.mem_keys_iff, h k']
  by_cases same : k' = k <;> simp [same]

/-- Counters stay and none of them falls. -/
structure Grows (r r' : Registry) : Prop where
  keys : r.counts.keys ⊆ r'.counts.keys
  value : ∀ k, r.value k ≤ r'.value k

theorem Adds.grows {r r' : Registry} {k : Key} (h : r.Adds k r') : r.Grows r' where
  keys k' mem := (h.mem_keys_iff k').2 (.inr mem)
  value k' := h.value k' ▸ Nat.le_add_right _ _

theorem named_nodup (r : Registry) (name : String) : (r.named name).Nodup :=
  r.counts.keys_nodup.filter _

theorem total_eq_sum (r : Registry) (name : String) :
    r.total name = ((r.named name).map r.value).sum := by
  have found : ∀ e ∈ r.counts.entries, r.value e.1 = e.2 := by
    intro e mem
    unfold value
    rw [(Table.mem_entries_iff r.counts e.1 e.2).1 mem]
    rfl
  unfold total snapshot named Table.keys
  rw [List.filter_map, List.map_map, List.sum_eq_foldl, List.foldl_map]
  refine List.foldl_ext _ _ _ ?_
  intro n e mem
  exact congrArg (n + ·) (found e (List.mem_filter.1 mem).1).symm

theorem Grows.total {r r' : Registry} (h : r.Grows r') (name : String) :
    r.total name ≤ r'.total name := by
  have more : (r.named name).Subperm (r'.named name) := by
    refine (r.named_nodup name).subperm ?_
    intro k mem
    obtain ⟨there, named⟩ := List.mem_filter.1 mem
    exact List.mem_filter.2 ⟨h.keys there, named⟩
  obtain ⟨l, perm, sub⟩ := more
  rw [total_eq_sum, total_eq_sum]
  calc ((r.named name).map r.value).sum
      ≤ ((r.named name).map r'.value).sum := List.sum_le_sum fun k _ => h.value k
    _ = (l.map r'.value).sum := (perm.map r'.value).sum_eq.symm
    _ ≤ ((r'.named name).map r'.value).sum := (sub.map r'.value).sum_le_sum fun _ _ => Nat.zero_le _

/-- After a list of increments every counter among theirs has moved by as many as there are of it. -/
theorem get?_apply (r : Registry) (is : List Increment) (k : Key) :
    (r.apply is).counts.get? k =
      if k ∈ is.map Increment.key then some (r.value k + (is.map Increment.key).count k)
      else r.counts.get? k := by
  unfold apply
  induction is generalizing r with
  | nil => rfl
  | cons i is ih =>
    have adds := adds_increment r i
    rw [List.foldl_cons, ih, adds.value, adds k]
    by_cases same : k = i.key
    · by_cases later : k ∈ is.map Increment.key
      · simp only [same ▸ later, same, if_true, List.map_cons, List.mem_cons, true_or,
          List.count_cons_self, Option.some.injEq]
        omega
      · simp [same ▸ later, same, List.count_eq_zero.2 (same ▸ later)]
    · simp [same, Ne.symm same]

theorem value_apply (r : Registry) (is : List Increment) (k : Key) :
    (r.apply is).value k = r.value k + (is.map Increment.key).count k := by
  unfold value
  rw [get?_apply]
  split
  · rfl
  · rename_i absent
    rw [List.count_eq_zero.2 absent]
    rfl

end Registry
end Counter
end Clearance
