import Clearance.Proofs.Settings.Tree
import Clearance.Settings.Decode

/-!
What the decoder makes of a tree. A section takes its entries in the order of their keys and looks at
no others, so the settings depend on what stands at their six paths alone.
-/
namespace Clearance.Settings.Decoder
variable {σ : Type}

/-- Takes what is found under the key of an entry. -/
def step (look : String → Option Tree) (e : Entry σ) (v : σ) : Except Problem σ :=
  match look e.key with
  | none => .ok v
  | some t => (within e.key (e.read t)).map (· v)

def pick (look : String → Option Tree) : List (Entry σ) → σ → Except Problem σ
  | [], v => .ok v
  | e :: es, v => (step look e v).bind (pick look es)

theorem pick_congr {look look' : String → Option Tree} {es : List (Entry σ)}
    (same : ∀ e ∈ es, look e.key = look' e.key) : pick look es = pick look' es := by
  induction es with
  | nil => rfl
  | cons e es ih =>
    obtain ⟨head, rest⟩ := List.forall_mem_cons.1 same
    funext v
    simp only [pick, step, head, ih rest]

theorem pick_append {look : String → Option Tree} {es : List (Entry σ)}
    (absent : ∀ e ∈ es, look e.key = none) (es' : List (Entry σ)) (v : σ) :
    pick look (es ++ es') v = pick look es' v := by
  induction es with
  | nil => rfl
  | cons e es ih =>
    obtain ⟨head, rest⟩ := List.forall_mem_cons.1 absent
    simp only [List.cons_append, pick, step, head, Except.bind, ih rest]

/-- The entries of a section in the order of their keys. -/
structure Sorted (s : Section σ) (es : List (Entry σ)) : Prop where
  perm : es.Perm s.entries
  keys : es.Pairwise fun a b => compare a.key b.key = .lt

theorem Sorted.mem_of_find {s : Section σ} {es : List (Entry σ)} (h : Sorted s es) {k : String}
    {e : Entry σ} (found : s.entries.find? (·.key == k) = some e) : e ∈ es ∧ e.key = k :=
  have same := List.find?_some found
  ⟨h.perm.mem_iff.2 (List.mem_of_find?_eq_some found), beq_iff_eq.1 same⟩

theorem Sorted.ne_of_find {s : Section σ} {es : List (Entry σ)} (h : Sorted s es) {k : String}
    (missing : s.entries.find? (·.key == k) = none) : ∀ e ∈ es, e.key ≠ k := by
  intro e mem same
  exact List.find?_eq_none.1 missing e (h.perm.mem_iff.1 mem) (beq_iff_eq.2 same)

theorem byKey_eq_pick {s : Section σ} {es : List (Entry σ)} (h : Sorted s es)
    {l : List (String × Tree)} (ascending : Ascending l) (v : σ) :
    s.byKey v l = pick (findKey? · l) es v := by
  induction l generalizing v with
  | nil =>
    have nothing : pick (findKey? · []) (es ++ []) v = .ok v := pick_append (fun _ _ => rfl) [] v
    rw [List.append_nil] at nothing
    exact nothing.symm
  | cons e l ih =>
    obtain ⟨k, t⟩ := e
    have later := (List.pairwise_cons.1 ascending).2
    have past {k' : String} (ne : k' ≠ k) : findKey? k' ((k, t) :: l) = findKey? k' l := by
      simp [findKey?, ne]
    rw [Section.byKey]
    split
    · rename_i missing
      rw [ih later]
      exact congrFun (pick_congr fun e mem => (past (h.ne_of_find missing e mem)).symm) v
    · rename_i e found
      obtain ⟨mem, rfl⟩ := h.mem_of_find found
      obtain ⟨before, after, rfl⟩ := List.append_of_mem mem
      obtain ⟨_, tail, less⟩ := List.pairwise_append.1 h.keys
      have greater := (List.pairwise_cons.1 tail).1
      have apart {k k' : String} (lt : compare k k' = .lt) : k ≠ k' := by
        rintro rfl
        rw [Std.ReflOrd.compare_self] at lt
        contradiction
      have below : ∀ b ∈ before, findKey? b.key ((e.key, t) :: l) = none := fun b mem =>
        findKey?_of_lt ascending (less b mem e List.mem_cons_self)
      have below' : ∀ b ∈ before, findKey? b.key l = none := fun b mem =>
        (past (apart (less b mem e List.mem_cons_self))) ▸ below b mem
      have above : pick (findKey? · ((e.key, t) :: l)) after = pick (findKey? · l) after :=
        pick_congr fun a mem => past (apart (greater a mem)).symm
      rw [pick_append below, pick, above]
      simp only [step, findKey?, Std.ReflOrd.compare_self, if_true]
      cases within e.key (e.read t) with
      | error p => rfl
      | ok change =>
        simp only [bind, Except.bind, Except.map]
        rw [ih later, pick_append below', pick, step, findKey?_head ascending]
        rfl

end Clearance.Settings.Decoder
