import Mathlib.Algebra.BigOperators.Group.List.Lemmas
import Clearance.Proofs.Counter.Registry

/-!
A registry that has counted the increments of a list, and nothing besides. What is read from it can be
read off the list, and the order of the list does not matter.
-/
namespace Clearance.Counter.Registry
variable {r r' : Registry} {is js : List Increment}

def Tallies (r : Registry) (is : List Increment) : Prop :=
  ∀ k, r.counts.get? k =
    if k ∈ is.map Increment.key then some ((is.map Increment.key).count k) else none

/-- The order of increments does not matter. -/
theorem apply_perm (r : Registry) (perm : is.Perm js) : r.apply is = r.apply js := by
  have keys := perm.map Increment.key
  have counts : (r.apply is).counts = (r.apply js).counts := by
    refine Table.ext_get? fun k => ?_
    simp only [get?_apply, keys.count_eq, keys.mem_iff]
  exact congrArg Registry.mk counts

theorem tallies_apply (is : List Increment) : (({} : Registry).apply is).Tallies is := by
  have nothing : ∀ k, ({} : Registry).value k = 0 := fun _ => rfl
  intro k
  rw [get?_apply, nothing, Nat.zero_add]
  rfl

theorem Tallies.value (h : r.Tallies is) (k : Key) : r.value k = (is.map Increment.key).count k := by
  unfold Registry.value
  rw [h k]
  split
  · rfl
  · rename_i absent
    exact (List.count_eq_zero.2 absent).symm

theorem Tallies.count (h : r.Tallies is) (i : Increment) : r.count i = is.countP i.SameCounter :=
  (h.value i.key).trans (count_keys i is)

theorem Tallies.mem_keys_iff (h : r.Tallies is) (k : Key) :
    k ∈ r.counts.keys ↔ k ∈ is.map Increment.key := by
  rw [Table.mem_keys_iff, h k]
  split <;> simp [*]

theorem Tallies.perm_keys (h : r.Tallies is) : r.counts.keys.Perm (is.map Increment.key).dedup := by
  refine (List.perm_ext_iff_of_nodup r.counts.keys_nodup (List.nodup_dedup _)).2 ?_
  intro k
  rw [h.mem_keys_iff, List.mem_dedup]

theorem Tallies.mem_snapshot_iff (h : r.Tallies is) (k : Key) (n : Nat) :
    (k, n) ∈ r.snapshot ↔ k ∈ is.map Increment.key ∧ n = (is.map Increment.key).count k := by
  unfold snapshot
  rw [Table.mem_entries_iff, h k]
  split <;> simp [*, eq_comm]

theorem Tallies.total (h : r.Tallies is) (name : String) :
    r.total name = is.countP (·.name == name) := by
  have named : (r.named name).Perm ((is.map Increment.key).dedup.filter (·.name == name)) :=
    h.perm_keys.filter _
  calc r.total name = ((r.named name).map r.value).sum := total_eq_sum r name
    _ = ((r.named name).map (is.map Increment.key).count).sum := by
      rw [List.map_congr_left fun k _ => h.value k]
    _ = (((is.map Increment.key).dedup.filter (·.name == name)).map
          (is.map Increment.key).count).sum := (named.map _).sum_eq
    _ = (is.map Increment.key).countP (·.name == name) :=
      List.sum_map_count_dedup_filter_eq_countP _ _
    _ = is.countP (·.name == name) := List.countP_map

theorem Tallies.eq (h : r.Tallies is) (h' : r'.Tallies js) (perm : is.Perm js) : r = r' := by
  have keys := perm.map Increment.key
  refine congrArg Registry.mk (Table.ext_get? ?_)
  intro k
  simp only [h k, h' k, keys.count_eq, keys.mem_iff]

end Clearance.Counter.Registry
