import Clearance.Proofs.Counter.Tally

/-!
The views of a registry: single counters, totals and the snapshot. They tell the same of the increments
that were counted. Order is that of names, then of labels, and in a label of its key, then of its value.
-/
namespace Clearance

theorem compare_text_eq_lt_iff (s t : String) : compare s t = .lt ↔ s < t := compareOfLessAndEq_eq_lt

def Label.Before (a b : Label) : Prop := a.key < b.key ∨ a.key = b.key ∧ a.value < b.value

theorem Label.compare_eq_lt_iff (a b : Label) : compare a b = .lt ↔ a.Before b := by
  have lex : compare a b = (compare a.key b.key).then (compare a.value b.value) := rfl
  rw [lex, Ordering.then_eq_lt, compare_text_eq_lt_iff, compare_text_eq_lt_iff, Std.compare_eq_iff_eq]
  rfl

/-- Lists of labels are in order by the first label that differs, and a list comes after its own
beginnings. -/
theorem compare_labels_eq_lt_iff (l l' : List Label) :
    compare l l' = .lt ↔ List.Lex Label.Before l l' := by
  induction l generalizing l' with
  | nil =>
    cases l' with
    | nil => exact iff_of_false nofun nofun
    | cons b l' => exact iff_of_true rfl .nil
  | cons a l ih =>
    cases l' with
    | nil => exact iff_of_false nofun nofun
    | cons b l' =>
      have lex : compare (a :: l) (b :: l') = (compare a b).then (compare l l') :=
        List.compareLex_cons_cons
      rw [lex, Ordering.then_eq_lt, Label.compare_eq_lt_iff, Std.compare_eq_iff_eq, ih]
      constructor
      · rintro (before | ⟨rfl, later⟩)
        · exact .rel before
        · exact .cons later
      · rintro (_ | before | later)
        · exact .inl before
        · exact .inr ⟨rfl, later⟩

namespace Counter

def Key.Before (k k' : Key) : Prop :=
  k.name < k'.name ∨ k.name = k'.name ∧ List.Lex Label.Before k.labels k'.labels

def Key.Sorted (k : Key) : Prop := k.labels.Pairwise fun a b => ¬ b.Before a

theorem Key.compare_eq_lt_iff (k k' : Key) : compare k k' = .lt ↔ k.Before k' := by
  have lex : compare k k' = (compare k.name k'.name).then (compare k.labels k'.labels) := rfl
  rw [lex, Ordering.then_eq_lt, compare_text_eq_lt_iff, Std.compare_eq_iff_eq,
    compare_labels_eq_lt_iff]
  rfl

theorem sorted_key (i : Increment) : i.key.Sorted := by
  refine (sorted_labels i).imp ?_
  intro a b ordered before
  have lt : compare b a = .lt := (Label.compare_eq_lt_iff b a).2 before
  rw [Std.OrientedCmp.gt_of_lt lt] at ordered
  contradiction

/-- The key of an increment has the labels in order; any other list of them in order is the same. -/
theorem key_eq_iff_sorted (i : Increment) (k : Key) :
    i.key = k ↔ k.Sorted ∧ i.name = k.name ∧ i.labels.Perm k.labels := by
  constructor
  · rintro rfl
    exact ⟨sorted_key i, rfl, (List.mergeSort_perm _ _).symm⟩
  · rintro ⟨sorted, name, labels⟩
    have perm : i.key.labels.Perm k.labels := (List.mergeSort_perm _ _).trans labels
    have same : i.key.labels = k.labels := by
      -- labels of which neither is before the other are equal, so there is one order
      refine perm.eq_of_pairwise ?_ (sorted_key i) sorted
      intro a b _ _ ab ba
      rw [← Label.compare_eq_lt_iff] at ab ba
      refine Std.compare_eq_iff_eq.1 ?_
      cases order : compare a b with
      | lt => exact absurd order ba
      | eq => rfl
      | gt => exact absurd (Std.OrientedCmp.lt_of_gt order) ab
    exact (Key.mk.injEq _ _ _ _).mpr ⟨name, same⟩

namespace Registry

theorem increment_eq_iff (r : Registry) (i j : Increment) :
    r.increment i = r.increment j ↔ i.SameCounter j := by
  have keys : i.key = j.key ↔ i.SameCounter j := Increment.key_eq_iff i j
  rw [← keys]
  constructor
  · intro same
    have moved := (adds_increment r i).value i.key
    rw [same, (adds_increment r j).value i.key] at moved
    by_contra apart
    simp [apart] at moved
  · intro same
    unfold increment
    rw [same]

theorem total_eq_sum_snapshot (r : Registry) (name : String) :
    r.total name = ((r.snapshot.filter (·.1.name == name)).map Prod.snd).sum := by
  unfold total
  rw [List.sum_eq_foldl, List.foldl_map]

theorem sum_snapshot (r : Registry) : (r.snapshot.map Prod.snd).sum = (r.counts.keys.map r.value).sum := by
  have values : r.snapshot.map Prod.snd = r.counts.keys.map r.value := by
    unfold Table.keys
    rw [List.map_map]
    refine List.map_congr_left ?_
    intro e mem
    unfold Function.comp value
    rw [(Table.mem_entries_iff r.counts e.1 e.2).1 mem]
    rfl
  rw [values]

theorem ascending_snapshot (r : Registry) : r.snapshot.Pairwise fun a b => a.1.Before b.1 :=
  r.counts.ascending.imp fun {_ _} lt => (Key.compare_eq_lt_iff _ _).1 lt

/-- What is read from a registry, whichever way, is what some increments amount to. -/
structure Shows (r : Registry) (is : List Increment) : Prop where
  /-- One more increment moves the same counter as another if they agree up to the order of labels. -/
  hits : ∀ i j, r.increment i = r.increment j ↔ i.name = j.name ∧ i.labels.Perm j.labels
  count : ∀ i, r.count i = is.countP i.SameCounter
  asked : ∀ i j, i.SameCounter j → r.count i = r.count j
  /-- Each counter that was incremented and no other, its labels in order. -/
  entries : ∀ k n, (k, n) ∈ r.snapshot ↔ k.Sorted ∧
    ∃ i ∈ is, i.name = k.name ∧ i.labels.Perm k.labels ∧ n = is.countP i.SameCounter
  ascending : r.snapshot.Pairwise fun a b => a.1.Before b.1
  distinct : (r.snapshot.map Prod.fst).Nodup
  total : ∀ name, r.total name = ((r.snapshot.filter (·.1.name == name)).map Prod.snd).sum ∧
    r.total name = is.countP (·.name == name)
  sum : (r.snapshot.map Prod.snd).sum = is.length
  /-- No value outgrows a word that can hold the number of increments. -/
  bounded : ∀ i name, r.count i ≤ is.length ∧ r.total name ≤ is.length

variable {r : Registry} {is : List Increment}

theorem Tallies.sum_snapshot (h : r.Tallies is) : (r.snapshot.map Prod.snd).sum = is.length := by
  calc (r.snapshot.map Prod.snd).sum = (r.counts.keys.map r.value).sum := r.sum_snapshot
    _ = (r.counts.keys.map (is.map Increment.key).count).sum := by
      rw [List.map_congr_left fun k _ => h.value k]
    _ = ((is.map Increment.key).dedup.map (is.map Increment.key).count).sum :=
      (h.perm_keys.map _).sum_eq
    _ = (is.map Increment.key).length := List.sum_map_count_dedup_eq_length _
    _ = is.length := List.length_map _

theorem Tallies.mem_snapshot_iff_sorted (h : r.Tallies is) (k : Key) (n : Nat) :
    (k, n) ∈ r.snapshot ↔ k.Sorted ∧
      ∃ i ∈ is, i.name = k.name ∧ i.labels.Perm k.labels ∧ n = is.countP i.SameCounter := by
  rw [h.mem_snapshot_iff, List.mem_map]
  constructor
  · rintro ⟨⟨i, mem, rfl⟩, count⟩
    obtain ⟨sorted, name, labels⟩ := (key_eq_iff_sorted i _).1 rfl
    exact ⟨sorted, i, mem, name, labels, count.trans (count_keys i is)⟩
  · rintro ⟨sorted, i, mem, name, labels, count⟩
    obtain rfl : i.key = k := (key_eq_iff_sorted i k).2 ⟨sorted, name, labels⟩
    exact ⟨⟨i, mem, rfl⟩, count.trans (count_keys i is).symm⟩

theorem Tallies.shows (h : r.Tallies is) : r.Shows is where
  hits := r.increment_eq_iff
  count := h.count
  asked i j same := congrArg r.value ((Increment.key_eq_iff i j).2 same)
  entries := h.mem_snapshot_iff_sorted
  ascending := r.ascending_snapshot
  distinct := r.counts.keys_nodup
  total name := ⟨r.total_eq_sum_snapshot name, h.total name⟩
  sum := h.sum_snapshot
  bounded i name := by
    rw [h.count, h.total]
    exact ⟨List.countP_le_length, List.countP_le_length⟩

/-- Single counters, totals and the snapshot agree, whatever was counted. The order in which it was
counted does not show. -/
theorem shows_apply (is : List Increment) : (({} : Registry).apply is).Shows is ∧
    ∀ js, is.Perm js → (({} : Registry).apply js).snapshot = (({} : Registry).apply is).snapshot := by
  refine ⟨(tallies_apply is).shows, ?_⟩
  intro js perm
  rw [apply_perm {} perm]

/-- One counter with its labels in either order, and another one. -/
theorem shows_apply_swapped :
    let a : Increment := ⟨"authorization", [⟨"descriptionClass", "A"⟩, ⟨"success", "true"⟩]⟩
    let b : Increment := ⟨"authorization", [⟨"success", "true"⟩, ⟨"descriptionClass", "A"⟩]⟩
    let c : Increment := ⟨"authorization", [⟨"descriptionClass", "A"⟩, ⟨"success", "false"⟩]⟩
    let r := ({} : Registry).apply [a, b, c]
    r.count b = 2 ∧ r.count c = 1 ∧ r.increment a = r.increment b ∧
      (r.snapshot.map Prod.snd).sum = 3 ∧ r.snapshot = (({} : Registry).apply [c, b, a]).snapshot := by
  intro a b c r
  obtain ⟨shows, reordered⟩ := shows_apply [a, b, c]
  have swapped : a.SameCounter b := by decide
  have reversed : [a, b, c].Perm [c, b, a] := by decide
  exact ⟨(shows.count b).trans (by decide), (shows.count c).trans (by decide),
    (shows.hits a b).2 swapped, shows.sum, (reordered [c, b, a] reversed).symm⟩

end Registry
end Counter
end Clearance
