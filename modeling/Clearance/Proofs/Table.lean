import Mathlib.Data.List.Induction
import Mathlib.Data.List.Nodup
import Clearance.Table

/-!
Tables as maps: what is found under a key after a value was put there, and that the entries are
exactly what is found. A table that is made of a list has the last value of each key.
-/
namespace Clearance
variable {κ α : Type} [Ord κ] [Std.LawfulEqOrd κ]

theorem findKey?_putEntry [DecidableEq κ] (k k' : κ) (v : α) (l : List (κ × α)) :
    findKey? k' (putEntry k v l) = if k' = k then some v else findKey? k' l := by
  induction l with
  | nil => simp [putEntry, findKey?]
  | cons e l ih =>
    unfold putEntry
    split
    next lt => simp [findKey?]
    next eq =>
      obtain rfl : k = e.1 := Std.compare_eq_iff_eq.1 eq
      by_cases h : k' = e.1 <;> simp [findKey?, h]
    next gt =>
      have apart : k ≠ e.1 := by
        intro he
        rw [he, Std.ReflOrd.compare_self] at gt
        exact absurd gt (by decide)
      by_cases h : k' = k
      · subst h
        simp [findKey?, apart, ih]
      · simp [findKey?, ih, h]

theorem putEntry_putEntry (k : κ) (v v' : α) (l : List (κ × α)) :
    putEntry k v' (putEntry k v l) = putEntry k v' l := by
  induction l with
  | nil => simp [putEntry]
  | cons e l ih =>
    cases order : compare k e.1 <;> simp [putEntry, order, ih]

theorem putEntry_comm [Std.TransOrd κ] {k k' : κ} (apart : k ≠ k') (v v' : α) (l : List (κ × α)) :
    putEntry k v (putEntry k' v' l) = putEntry k' v' (putEntry k v l) := by
  have swap : compare k' k = (compare k k').swap := Std.OrientedOrd.eq_swap
  have ne : compare k k' ≠ .eq := fun h => apart (Std.compare_eq_iff_eq.1 h)
  induction l with
  | nil => cases order : compare k k' <;> simp_all [putEntry]
  | cons e l ih =>
    -- one key before the entry, the other not, are in order
    have between {a b : κ} (before : compare a e.1 = .lt) (after : compare b e.1 ≠ .lt) :
        compare a b = .lt := by
      refine Std.TransCmp.lt_of_lt_of_isLE before ?_
      rw [Std.OrientedOrd.eq_swap]
      cases h : compare b e.1 <;> simp_all
    have after := between (a := k) (b := k')
    have before := between (a := k') (b := k)
    cases first : compare k e.1 <;> cases second : compare k' e.1 <;>
      cases order : compare k k' <;> simp_all [putEntry]

theorem mem_iff_findKey? {l : List (κ × α)} (h : Ascending l) (k : κ) (v : α) :
    (k, v) ∈ l ↔ findKey? k l = some v := by
  induction l with
  | nil => simp [findKey?]
  | cons e l ih =>
    obtain ⟨first, later⟩ := List.pairwise_cons.1 h
    simp only [findKey?, List.mem_cons]
    split
    next eq =>
      -- the key stands first, and only there
      obtain rfl : k = e.1 := Std.compare_eq_iff_eq.1 eq
      constructor
      · rintro (he | hl)
        · exact congrArg (fun e => some e.2) he.symm
        · have lt : compare e.1 e.1 = .lt := first (e.1, v) hl
          exact absurd (eq.symm.trans lt) (by decide)
      · intro hv
        exact .inl (Prod.ext rfl (Option.some.inj hv).symm)
    next ne =>
      rw [← ih later]
      constructor
      · rintro (rfl | hl)
        · exact absurd Std.ReflOrd.compare_self ne
        · exact hl
      · exact .inr

theorem findKey?_head {k : κ} {v : α} {l : List (κ × α)} (h : Ascending ((k, v) :: l)) :
    findKey? k l = none := by
  obtain ⟨first, later⟩ := List.pairwise_cons.1 h
  refine Option.eq_none_iff_forall_ne_some.2 fun v' found => ?_
  have lt : compare k k = .lt := first (k, v') ((mem_iff_findKey? later k v').2 found)
  rw [Std.ReflOrd.compare_self] at lt
  contradiction

theorem findKey?_of_lt [Std.TransOrd κ] {k k' : κ} {v : α} {l : List (κ × α)}
    (h : Ascending ((k, v) :: l)) (lt : compare k' k = .lt) : findKey? k' ((k, v) :: l) = none := by
  refine Option.eq_none_iff_forall_ne_some.2 fun v' found => ?_
  have self : compare k' k' = .lt := by
    rcases List.mem_cons.1 ((mem_iff_findKey? h k' v').2 found) with here | later
    · cases here
      exact lt
    · exact Std.TransCmp.lt_trans lt ((List.pairwise_cons.1 h).1 _ later)
  rw [Std.ReflOrd.compare_self] at self
  contradiction

/-- The last of the values under a key. -/
def LastIn {κ α : Type} (l : List (κ × α)) (k : κ) (v : α) : Prop :=
  ∃ before after, l = before ++ (k, v) :: after ∧ k ∉ after.map Prod.fst

theorem lastIn_nil {κ α : Type} (k : κ) (v : α) : ¬LastIn [] k v := by
  rintro ⟨before, after, split, -⟩
  simp at split

theorem lastIn_cons {κ α : Type} (e : κ × α) (l : List (κ × α)) (k : κ) (v : α) :
    LastIn (e :: l) k v ↔ e = (k, v) ∧ k ∉ l.map Prod.fst ∨ LastIn l k v := by
  constructor
  · rintro ⟨_ | ⟨e', before⟩, after, split, last⟩
    · obtain ⟨rfl, rfl⟩ := List.cons.inj split
      exact .inl ⟨rfl, last⟩
    · obtain ⟨rfl, rfl⟩ := List.cons.inj split
      exact .inr ⟨before, after, rfl, last⟩
  · rintro (⟨rfl, last⟩ | ⟨before, after, rfl, last⟩)
    · exact ⟨[], l, rfl, last⟩
    · exact ⟨e :: before, after, rfl, last⟩

theorem lastIn_repeated {κ α : Type} (k k' : κ) (v v' w : α) :
    LastIn [(k, v), (k, v')] k' w ↔ k = k' ∧ v' = w := by
  rw [lastIn_cons, lastIn_cons, List.map_cons, List.mem_cons, Prod.mk.injEq, Prod.mk.injEq]
  constructor
  · rintro (⟨⟨rfl, -⟩, unlisted⟩ | ⟨here, -⟩ | last)
    · exact absurd (.inl rfl) unlisted
    · exact here
    · exact absurd last (lastIn_nil k' w)
  · exact fun here => .inr (.inl ⟨here, List.not_mem_nil⟩)

theorem lastIn_concat {κ α : Type} (l : List (κ × α)) (e : κ × α) (k : κ) (v : α) :
    LastIn (l ++ [e]) k v ↔ k = e.1 ∧ v = e.2 ∨ k ≠ e.1 ∧ LastIn l k v := by
  constructor
  · rintro ⟨before, after, split, last⟩
    rcases List.eq_nil_or_concat after with rfl | ⟨after, e', rfl⟩
    · obtain ⟨-, same⟩ := List.append_inj' split rfl
      obtain rfl := List.singleton_inj.1 same
      exact .inl ⟨rfl, rfl⟩
    · rw [List.concat_eq_append, ← List.cons_append, ← List.append_assoc] at split
      obtain ⟨rfl, same⟩ := List.append_inj' split rfl
      obtain rfl := List.singleton_inj.1 same
      simp only [List.concat_eq_append, List.map_append, List.mem_append, List.map_cons, List.map_nil,
        List.mem_singleton, not_or] at last
      exact .inr ⟨last.2, before, after, rfl, last.1⟩
  · rintro (⟨rfl, rfl⟩ | ⟨ne, before, after, rfl, last⟩)
    · exact ⟨l, [], rfl, List.not_mem_nil⟩
    · refine ⟨before, after ++ [e], by simp, ?_⟩
      simpa [ne] using last

theorem lastIn_map {κ α β : Type} (f : α → β) (l : List (κ × α)) (k : κ) (v : β) :
    LastIn (l.map fun e => (e.1, f e.2)) k v ↔ ∃ a, LastIn l k a ∧ f a = v := by
  have keys (l : List (κ × α)) : (l.map fun e => (e.1, f e.2)).map Prod.fst = l.map Prod.fst := by
    rw [List.map_map]
    rfl
  constructor
  · rintro ⟨before, after, split, last⟩
    obtain ⟨before, rest, rfl, rfl, split'⟩ := List.map_eq_append_iff.1 split
    obtain ⟨⟨k, a⟩, after, rfl, here, rfl⟩ := List.map_eq_cons_iff.1 split'
    obtain ⟨rfl, rfl⟩ := Prod.mk.inj here
    exact ⟨a, ⟨before, after, rfl, keys after ▸ last⟩, rfl⟩
  · rintro ⟨a, ⟨before, after, rfl, last⟩, rfl⟩
    exact ⟨_, _, List.map_append, keys after ▸ last⟩

namespace Table

theorem get?_put [Std.TransOrd κ] [DecidableEq κ] (t : Table κ α) (k k' : κ) (v : α) :
    (t.put k v).get? k' = if k' = k then some v else t.get? k' :=
  findKey?_putEntry k k' v t.entries

theorem mem_entries_iff (t : Table κ α) (k : κ) (v : α) :
    (k, v) ∈ t.entries ↔ t.get? k = some v :=
  mem_iff_findKey? t.ascending k v

theorem mem_keys_iff (t : Table κ α) (k : κ) : k ∈ t.keys ↔ ∃ v, t.get? k = some v := by
  unfold keys
  simp only [List.mem_map, Prod.exists, mem_entries_iff, exists_and_right, exists_eq_right]

theorem keys_nodup (t : Table κ α) : t.keys.Nodup := by
  refine List.pairwise_map.2 (t.ascending.imp ?_)
  intro a b lt eq
  rw [eq, Std.ReflOrd.compare_self] at lt
  exact absurd lt (by decide)

theorem ext_get? [Std.TransOrd κ] {t t' : Table κ α} (same : ∀ k, t.get? k = t'.get? k) : t = t' := by
  obtain ⟨l, first⟩ := t
  obtain ⟨l', second⟩ := t'
  have members : ∀ e, e ∈ l ↔ e ∈ l' := by
    rintro ⟨k, v⟩
    rw [mem_iff_findKey? first, mem_iff_findKey? second]
    exact Eq.congr_left (same k)
  have perm : l.Perm l' :=
    (List.perm_ext_iff_of_nodup (List.Nodup.of_map Prod.fst (keys_nodup ⟨l, first⟩))
      (List.Nodup.of_map Prod.fst (keys_nodup ⟨l', second⟩))).2 members
  obtain rfl : l = l' := by
    refine perm.eq_of_pairwise ?_ first second
    intro a b _ _ lt gt
    exact absurd (Std.OrientedCmp.gt_of_lt gt) (lt ▸ nofun)
  rfl

theorem get?_ofList [Std.TransOrd κ] [DecidableEq κ] (l : List (κ × α)) (k : κ) (v : α) :
    (ofList l).get? k = some v ↔ LastIn l k v := by
  induction l using List.reverseRecOn generalizing v with
  | nil => exact iff_of_false nofun (lastIn_nil k v)
  | append_singleton l e ih =>
    have step : ofList (l ++ [e]) = (ofList l).put e.1 e.2 := List.foldl_append
    rw [step, get?_put, lastIn_concat, ← ih]
    by_cases here : k = e.1 <;> simp [here, eq_comm]

end Table
end Clearance
