import Mathlib.Data.List.Perm.Basic
import Clearance.Proofs.Counter.Tally
import Clearance.Proofs.Counter.Written

/-!
Counters that differ in their names, as a text and in memory. The text has one block for each counter of
a registry that has counted the same, and each of them has counted one. The order of the blocks is left
to whatever lets the counters out.
-/
namespace Clearance.Counter

/-- The block of a counter that has counted one: a heading, the counter with its labels in some order,
and an empty line. -/
def Exposes (text : String) (counter : Key × Nat) : Prop :=
  ∃ name labels written, NameAs counter.1.name name ∧ labels.Perm counter.1.labels ∧ labels ≠ [] ∧
    List.Forall₂ LabelAs labels written ∧ counter.2 = 1 ∧
    text = "# TYPE " ++ name ++ " counter\n" ++
      name ++ "\x7b" ++ String.intercalate "," written ++ "\x7d 1\n\n"

/-- Blocks, one for each counter in memory. -/
def Blocks (r : Registry) (blocks : List String) : Prop :=
  ∃ counters, counters.Perm r.snapshot ∧ List.Forall₂ Exposes blocks counters

/-- Which block comes first does not matter. -/
theorem Blocks.perm {r : Registry} {blocks blocks' : List String} (h : Blocks r blocks)
    (perm : blocks'.Perm blocks) : Blocks r blocks' := by
  obtain ⟨counters, memory, each⟩ := h
  obtain ⟨counters', each', moved⟩ := List.perm_comp_forall₂ perm each
  exact ⟨counters', moved.trans memory, each'⟩

/-- A counter that has counted one, as it is written. -/
def block (i : Increment) : String :=
  "# TYPE " ++ exposedName i.name ++ " counter\n" ++ exposedCounter i 1 ++ "\n"

theorem exposes_block {i : Increment} (labelled : i.labels ≠ []) : Exposes (block i) (i.key, 1) := by
  refine ⟨exposedName i.name, i.labels, i.labels.map exposedLabel, nameAs_exposedName i.name,
    (List.mergeSort_perm _ _).symm, labelled, ?_, rfl, ?_⟩
  · exact List.forall₂_map_right_iff.2 (List.forall₂_same.2 fun l _ => labelAs_exposedLabel l)
  · have one : toString 1 = "1" := rfl
    simp [block, exposedCounter, exposedLabels, labelled, one, String.append_assoc]

theorem eraseDups_of_nodup {α : Type} [BEq α] [LawfulBEq α] {l : List α} (h : l.Nodup) :
    l.eraseDups = l := by
  induction l with
  | nil => rfl
  | cons a l ih =>
    obtain ⟨fresh, later⟩ := List.nodup_cons.1 h
    have others : l.filter (fun b => !b == a) = l := by
      refine List.filter_eq_self.2 fun b mem => ?_
      simpa using ne_of_mem_of_not_mem mem fresh
    rw [List.eraseDups_cons, others, ih later]

section Distinct
variable {is : List Increment} (distinct : (is.map Increment.name).Nodup)
include distinct

theorem filter_name {i : Increment} (mem : i ∈ is) : is.filter (·.name == i.name) = [i] := by
  have same : ∀ j ∈ is, (j.name == i.name) = (j == i) := by
    intro j other
    rw [Bool.eq_iff_iff, beq_iff_eq, beq_iff_eq]
    exact ⟨List.inj_on_of_nodup_map distinct other mem, congrArg Increment.name⟩
  rw [List.filter_congr same, List.filter_beq,
    List.count_eq_one_of_mem (List.Nodup.of_map _ distinct) mem]
  rfl

theorem exposition_of_distinct (d : Drain) :
    exposition d is = String.join (d.order (is.map block)) := by
  unfold exposition
  rw [eraseDups_of_nodup distinct, List.map_map]
  refine congrArg (String.join ∘ d.order) (List.map_congr_left fun i mem => ?_)
  have alone := List.count_eq_one_of_mem (List.Nodup.of_map _ distinct) mem
  have only : d.order [exposedCounter i 1] = [exposedCounter i 1] :=
    List.perm_singleton.1 (d.perm _)
  simp [filter_name distinct mem, eraseDups_of_nodup (List.nodup_singleton i), alone, only, block,
    String.append_assoc]

theorem snapshot_of_distinct :
    (({} : Registry).apply is).snapshot.Perm (is.map fun i => (i.key, 1)) := by
  have tallies := Registry.tallies_apply is
  have keys : (is.map Increment.key).Nodup := by
    refine List.Nodup.of_map Key.name ?_
    rw [List.map_map]
    exact distinct
  have entries : ((({} : Registry).apply is).snapshot.map Prod.fst).Nodup := Table.keys_nodup _
  have ones : ((is.map fun i => (i.key, 1)).map Prod.fst).Nodup := by
    rw [List.map_map]
    exact keys
  refine (List.perm_ext_iff_of_nodup (.of_map _ entries) (.of_map _ ones)).2 ?_
  rintro ⟨k, n⟩
  rw [tallies.mem_snapshot_iff]
  constructor
  · rintro ⟨mem, rfl⟩
    obtain ⟨i, counted, rfl⟩ := List.mem_map.1 mem
    rw [List.count_eq_one_of_mem keys mem]
    exact List.mem_map.2 ⟨i, counted, rfl⟩
  · intro mem
    obtain ⟨i, counted, here⟩ := List.mem_map.1 mem
    obtain ⟨rfl, rfl⟩ := Prod.mk.inj here
    have mem : i.key ∈ is.map Increment.key := List.mem_map_of_mem counted
    exact ⟨mem, (List.count_eq_one_of_mem keys mem).symm⟩

theorem blocks_of_distinct (labelled : ∀ i ∈ is, i.labels ≠ []) :
    Blocks (({} : Registry).apply is) (is.map block) := by
  refine ⟨_, (snapshot_of_distinct distinct).symm, ?_⟩
  refine List.forall₂_map_left_iff.2 (List.forall₂_map_right_iff.2 (List.forall₂_same.2 ?_))
  exact fun i mem => exposes_block (labelled i mem)

end Distinct
end Clearance.Counter
