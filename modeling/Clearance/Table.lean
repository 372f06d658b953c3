/-!
Tables: values by key, each key once and in ascending order. Two tables that hold the same values
are therefore equal, however they were filled.
-/
namespace Clearance

/-- Puts a value into a list in ascending order of its keys, in the place of an earlier one. -/
def putEntry {κ α : Type} [Ord κ] (k : κ) (v : α) : List (κ × α) → List (κ × α)
  | [] => [(k, v)]
  | (k', v') :: l =>
    match compare k k' with
    | .lt => (k, v) :: (k', v') :: l
    | .eq => (k, v) :: l
    | .gt => (k', v') :: putEntry k v l

def findKey? {κ α : Type} [Ord κ] (k : κ) : List (κ × α) → Option α
  | [] => none
  | (k', v) :: l => if compare k k' = .eq then some v else findKey? k l

def Ascending {κ α : Type} [Ord κ] (l : List (κ × α)) : Prop :=
  l.Pairwise fun a b => compare a.1 b.1 = .lt

theorem key_mem_putEntry {κ α : Type} [Ord κ] {k : κ} {v : α} {l : List (κ × α)} {e : κ × α}
    (h : e ∈ putEntry k v l) : e = (k, v) ∨ e ∈ l := by
  induction l with
  | nil => simpa [putEntry] using h
  | cons a l ih =>
    unfold putEntry at h
    split at h
    · simpa using h
    · rcases List.mem_cons.1 h with h | h
      · exact .inl h
      · exact .inr (List.mem_cons_of_mem _ h)
    · rcases List.mem_cons.1 h with h | h
      · exact .inr (h ▸ List.mem_cons_self)
      · exact (ih h).imp_right (List.mem_cons_of_mem _)

theorem ascending_putEntry {κ α : Type} [Ord κ] [Std.TransOrd κ] {k : κ} {v : α}
    {l : List (κ × α)} (h : Ascending l) : Ascending (putEntry k v l) := by
  induction l with
  | nil => simp [putEntry, Ascending]
  | cons a l ih =>
    obtain ⟨first, later⟩ := List.pairwise_cons.1 h
    unfold putEntry
    split
    next lt =>
      refine List.pairwise_cons.2 ⟨fun b hb => ?_, h⟩
      rcases List.mem_cons.1 hb with rfl | hb
      · exact lt
      · exact Std.TransCmp.lt_trans lt (first b hb)
    next eq =>
      exact List.pairwise_cons.2
        ⟨fun b hb => Std.TransCmp.lt_of_eq_of_lt eq (first b hb), later⟩
    next gt =>
      refine List.pairwise_cons.2 ⟨fun b hb => ?_, ih later⟩
      rcases key_mem_putEntry hb with rfl | hb
      · exact Std.OrientedCmp.lt_of_gt gt
      · exact first b hb

structure Table (κ α : Type) [Ord κ] where
  entries : List (κ × α)
  ascending : Ascending entries
deriving DecidableEq

namespace Table
variable {κ α : Type} [Ord κ]

def empty : Table κ α := ⟨[], .nil⟩

instance : Inhabited (Table κ α) := ⟨empty⟩

def get? (t : Table κ α) (k : κ) : Option α := findKey? k t.entries

def put [Std.TransOrd κ] (t : Table κ α) (k : κ) (v : α) : Table κ α :=
  ⟨putEntry k v t.entries, ascending_putEntry t.ascending⟩

/-- Of entries with one key the last counts. -/
def ofList [Std.TransOrd κ] (l : List (κ × α)) : Table κ α :=
  l.foldl (fun t e => t.put e.1 e.2) empty

def keys (t : Table κ α) : List κ := t.entries.map Prod.fst

end Table
end Clearance
