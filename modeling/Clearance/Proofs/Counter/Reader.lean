import Clearance.Proofs.Counter.Registry

/-!
What a reader has been told stays consistent while others count. A total may mix older and newer
values of its counters; it is still no less than any earlier one and no more than the present one.
-/
namespace Clearance.Counter
variable {r r' : Registry} {x : Reader}

/-- The answer to a query if nobody else takes a turn. -/
def Query.now (r : Registry) : Query → Nat
  | .counter k => r.value k
  | .total name => r.total name

theorem Registry.Grows.now (more : r.Grows r') (q : Query) : q.now r ≤ q.now r' := by
  cases q with
  | counter k => exact more.value k
  | total name => exact more.total name

namespace Scan

/-- Every counter of the name is either still to be looked at or has been, at no more than it is now. -/
def Within (s : Scan) (r : Registry) : Prop :=
  ∃ seen, (seen ++ s.left).Perm (r.named s.name) ∧ s.sum ≤ (seen.map r.value).sum

def outlook (s : Scan) (r : Registry) : Nat := s.sum + (s.left.map r.value).sum

theorem outlook_grows (s : Scan) (more : r.Grows r') : s.outlook r ≤ s.outlook r' :=
  Nat.add_le_add_left (List.sum_le_sum fun k _ => more.value k) s.sum

/-- No counter is made while a total is being read, so none of those it has to look at is missing. -/
theorem Within.grows {s : Scan} (h : s.Within r) (more : r.Grows r')
    (none_made : r'.counts.keys ⊆ r.counts.keys) : s.Within r' := by
  obtain ⟨seen, perm, below⟩ := h
  have same : (r.named s.name).Perm (r'.named s.name) := by
    refine (List.perm_ext_iff_of_nodup (r.named_nodup _) (r'.named_nodup _)).2 ?_
    intro k
    unfold Registry.named
    rw [List.mem_filter, List.mem_filter]
    exact and_congr_left fun _ => ⟨fun mem => more.keys mem, fun mem => none_made mem⟩
  exact ⟨seen, perm.trans same, below.trans (List.sum_le_sum fun k _ => more.value k)⟩

theorem Within.start {name : String} {order : List Key} (perm : order.Perm (r.named name)) :
    ({ name, left := order } : Scan).Within r :=
  ⟨[], perm, Nat.le_refl _⟩

theorem Within.look {name : String} {k : Key} {left : List Key} {sum : Nat}
    (h : (⟨name, k :: left, sum⟩ : Scan).Within r) :
    (⟨name, left, sum + r.value k⟩ : Scan).Within r := by
  obtain ⟨seen, perm, below⟩ := h
  refine ⟨seen ++ [k], ?_, ?_⟩
  · rw [List.append_assoc]
    exact perm
  · rw [List.map_append, List.sum_append]
    exact Nat.add_le_add_right below _

theorem Within.sum_le {name : String} {sum : Nat} (h : (⟨name, [], sum⟩ : Scan).Within r) :
    sum ≤ r.total name := by
  obtain ⟨seen, perm, below⟩ := h
  rw [List.append_nil] at perm
  rw [Registry.total_eq_sum]
  exact below.trans (perm.map r.value).sum_eq.le

end Scan

namespace Reader

/-- A reader has seen no number fall, and will see none fall. -/
structure Consistent (x : Reader) (r : Registry) : Prop where
  ordered : x.answers.Pairwise fun a b => a.1 = b.1 → a.2 ≤ b.2
  bounded : ∀ a ∈ x.answers, a.2 ≤ a.1.now r
  within : ∀ s ∈ x.scan, s.Within r
  ahead : ∀ s ∈ x.scan, ∀ a ∈ x.answers, a.1 = .total s.name → a.2 ≤ s.outlook r

theorem consistent_empty (r : Registry) : ({} : Reader).Consistent r where
  ordered := .nil
  bounded _ mem := nomatch mem
  within _ scan := nomatch scan
  ahead _ scan := nomatch scan

theorem Consistent.grows (h : x.Consistent r) (more : r.Grows r')
    (locked : x.scan.isSome → r'.counts.keys ⊆ r.counts.keys) : x.Consistent r' where
  ordered := h.ordered
  bounded a mem := (h.bounded a mem).trans (more.now a.1)
  within s scan := (h.within s scan).grows more (locked (Option.isSome_of_mem scan))
  ahead s scan a mem same := (h.ahead s scan a mem same).trans (s.outlook_grows more)

theorem Consistent.answer (h : x.Consistent r) (q : Query) (n : Nat) (upper : n ≤ q.now r)
    (lower : ∀ a ∈ x.answers, a.1 = q → a.2 ≤ n) :
    Consistent { answers := x.answers ++ [(q, n)] } r where
  ordered := by
    refine List.pairwise_append.2 ⟨h.ordered, List.pairwise_singleton _ _, ?_⟩
    intro a mem b last
    obtain rfl := List.mem_singleton.1 last
    exact lower a mem
  bounded a mem := by
    rcases List.mem_append.1 mem with before | last
    · exact h.bounded a before
    · obtain rfl := List.mem_singleton.1 last
      exact upper
  within _ scan := nomatch scan
  ahead _ scan := nomatch scan

theorem Consistent.count (h : x.Consistent r) (i : Increment) : (x.count r i).Consistent r := by
  obtain ⟨answers, _ | s⟩ := x
  · refine h.answer (.counter i.key) (r.count i) (Nat.le_refl _) ?_
    intro a mem same
    exact (h.bounded a mem).trans (same ▸ Nat.le_refl _)
  · exact h

theorem Consistent.total (h : x.Consistent r) (name : String) (order : List Key) :
    (x.total r name order).Consistent r := by
  obtain ⟨answers, _ | s⟩ := x
  · unfold Reader.total
    dsimp only
    split
    · rename_i perm
      have order_perm := List.isPerm_iff.1 perm
      refine ⟨h.ordered, h.bounded, ?_, ?_⟩
      · rintro _ ⟨⟩
        exact .start order_perm
      · rintro _ ⟨⟩ a mem same
        -- an earlier total is at most the present one, which is the outlook of a new scan
        have now := h.bounded a mem
        rw [same] at now
        calc a.2 ≤ r.total name := now
          _ = (order.map r.value).sum := by
            rw [Registry.total_eq_sum, (order_perm.map r.value).sum_eq]
          _ = _ := (Nat.zero_add _).symm
    · exact h
  · exact h

theorem Consistent.look (h : x.Consistent r) : (x.look r).Consistent r := by
  obtain ⟨answers, _ | ⟨name, _ | ⟨k, left⟩, sum⟩⟩ := x
  · exact h
  · -- the last counter has been looked at
    exact h.answer (.total name) sum (h.within _ rfl).sum_le (h.ahead _ rfl)
  · refine ⟨h.ordered, h.bounded, ?_, ?_⟩
    · rintro _ ⟨⟩
      exact (h.within _ rfl).look
    · rintro _ ⟨⟩ a mem same
      have now : a.2 ≤ sum + ((k :: left).map r.value).sum := h.ahead _ rfl a mem same
      rw [List.map_cons, List.sum_cons, ← Nat.add_assoc] at now
      exact now

theorem look_alone (answers : List (Query × Nat)) (s : Scan) :
    (fun x : Reader => x.look r)^[s.left.length + 1] ⟨answers, some s⟩ =
      { answers := answers ++ [(.total s.name, s.outlook r)] } := by
  obtain ⟨name, left, sum⟩ := s
  induction left generalizing sum with
  | nil => rfl
  | cons k left ih =>
    rw [List.length_cons, Function.iterate_succ_apply]
    refine (ih (sum + r.value k)).trans ?_
    unfold Scan.outlook
    rw [List.map_cons, List.sum_cons, Nat.add_assoc]

/-- A total that is read in one go is the total of the registry, in whatever order it is read. -/
theorem total_alone (answers : List (Query × Nat)) (name : String) {order : List Key}
    (perm : order.Perm (r.named name)) :
    (fun x : Reader => x.look r)^[order.length + 1] (Reader.total ⟨answers, none⟩ r name order) =
      { answers := answers ++ [(.total name, r.total name)] } := by
  have opened : Reader.total ⟨answers, none⟩ r name order = ⟨answers, some { name, left := order }⟩ :=
    if_pos (List.isPerm_iff.2 perm)
  rw [opened, look_alone answers { name, left := order }, Registry.total_eq_sum,
    ← (perm.map r.value).sum_eq]
  unfold Scan.outlook
  rw [Nat.zero_add]

end Reader
end Clearance.Counter
