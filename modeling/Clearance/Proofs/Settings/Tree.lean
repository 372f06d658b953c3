import Clearance.Proofs.Table
import Clearance.Settings.Tree

/-!
Trees by path. What stands at a path of an overlay is what the upper tree has there, and else what the
lower one has. Two values that are nested along paths of which neither leads to the other may be laid
over a tree in any order.
-/
namespace Clearance.Settings.Tree

def isTable : Tree → Bool
  | table .. => true
  | _ => false

/-- The entries of a table. Nothing else has any. -/
def entries : Tree → List (String × Tree)
  | table _ l => l
  | _ => []

@[simp] theorem entries_table (s : Source) (l : List (String × Tree)) : (table s l).entries = l := rfl

def at? (t : Tree) : List String → Option Tree
  | [] => some t
  | k :: path => (findKey? k t.entries).bind (at? · path)

theorem eq_table_of_isTable {t : Tree} (h : t.isTable = true) : t = table t.source t.entries := by
  cases t with
  | table _ _ => rfl
  | leaf _ _ => contradiction
  | list _ _ => contradiction

theorem overlay_of_not_isTable {t : Tree} (h : t.isTable = false) (below : Tree) :
    overlay below t = t := by
  cases t with
  | table _ _ => contradiction
  | leaf _ _ => rw [overlay]
  | list _ _ => rw [overlay]

theorem overlay_table (below : Tree) (s : Source) (upper : List (String × Tree)) :
    overlay below (table s upper) = table s (overlayEntries below.entries upper) := by
  cases below <;> simp [overlay, entries]

theorem isTable_overlay (below t : Tree) : (overlay below t).isTable = t.isTable := by
  cases t with
  | table _ _ => rw [overlay_table]; rfl
  | leaf _ _ => rw [overlay]
  | list _ _ => rw [overlay]

theorem entries_overlay {t : Tree} (h : t.isTable = true) (below : Tree) :
    (overlay below t).entries = overlayEntries below.entries t.entries := by
  rw [eq_table_of_isTable h, overlay_table]
  rfl

theorem at?_singleton (t : Tree) (k : String) : t.at? [k] = findKey? k t.entries := by
  simp [at?]

theorem at?_cons (t : Tree) (k : String) (path : List String) :
    t.at? (k :: path) = (t.at? [k]).bind (·.at? path) := by
  rw [at?_singleton, at?]

/-- What is laid over an entry, or takes the place of none. -/
def laid (below : Option Tree) (t : Tree) : Tree :=
  match below with
  | some b => overlay b t
  | none => t

theorem overlayEntries_cons (lower upper : List (String × Tree)) (k : String) (t : Tree) :
    overlayEntries lower ((k, t) :: upper) =
      overlayEntries (putEntry k (laid (findKey? k lower) t) lower) upper := by
  rw [overlayEntries]
  cases findKey? k lower <;> rfl

/-- Every table in the tree has its keys in ascending order. -/
inductive Ordered : Tree → Prop where
  | leaf {s : Source} {v : Scalar} : Ordered (.leaf s v)
  | list {s : Source} {l : List Tree} : (∀ t ∈ l, Ordered t) → Ordered (.list s l)
  | table {s : Source} {l : List (String × Tree)} : Ascending l → (∀ e ∈ l, Ordered e.2) →
    Ordered (.table s l)

theorem Ordered.ascending {t : Tree} (h : t.Ordered) : Ascending t.entries := by
  cases h with
  | table ascending _ => exact ascending
  | leaf => exact .nil
  | list _ => exact .nil

theorem Ordered.inner {t : Tree} (h : t.Ordered) : ∀ e ∈ t.entries, e.2.Ordered := by
  cases h with
  | table _ inner => exact inner
  | leaf => exact fun _ h => nomatch h
  | list _ => exact fun _ h => nomatch h

theorem Ordered.find {t u : Tree} (h : t.Ordered) {k : String} (found : findKey? k t.entries = some u) :
    u.Ordered :=
  h.inner (k, u) ((mem_iff_findKey? h.ascending k u).2 found)

theorem ordered_put {s : Source} {l : List (String × Tree)} (h : (table s l).Ordered) {t : Tree}
    (ht : t.Ordered) (k : String) : (table s (putEntry k t l)).Ordered := by
  refine .table (ascending_putEntry h.ascending) fun e mem => ?_
  rcases key_mem_putEntry mem with rfl | old
  · exact ht
  · exact h.inner e old

theorem Ordered.at? {t u : Tree} (h : t.Ordered) {path : List String} (found : t.at? path = some u) :
    u.Ordered := by
  induction path generalizing t with
  | nil => exact Option.some.inj found ▸ h
  | cons k path ih =>
    obtain ⟨t', inner, found⟩ := Option.bind_eq_some_iff.1 found
    exact ih (h.find inner) found

theorem ordered_overlayEntries {upper : List (String × Tree)}
    (h : ∀ e ∈ upper, e.2.Ordered ∧ ∀ {below : Tree}, below.Ordered → (overlay below e.2).Ordered)
    {s : Source} {lower : List (String × Tree)} (hl : (table s lower).Ordered) :
    (table s (overlayEntries lower upper)).Ordered := by
  induction upper generalizing lower with
  | nil =>
    rw [overlayEntries]
    exact hl
  | cons e upper ih =>
    obtain ⟨⟨ordered, laid⟩, rest⟩ := List.forall_mem_cons.1 h
    rw [overlayEntries_cons]
    refine ih rest (ordered_put hl ?_ e.1)
    cases found : findKey? e.1 lower with
    | none => exact ordered
    | some below => exact laid (hl.find found)

theorem Ordered.overlay {t : Tree} (h : t.Ordered) {below : Tree} (hb : below.Ordered) :
    (below.overlay t).Ordered := by
  induction h generalizing below with
  | leaf =>
    rw [Tree.overlay]
    exact .leaf
  | list h _ =>
    rw [Tree.overlay]
    exact .list h
  | table _ inner ih =>
    rw [overlay_table]
    exact ordered_overlayEntries (fun e mem => ⟨inner e mem, ih e mem⟩) (.table hb.ascending hb.inner)

theorem findKey?_overlayEntries {upper : List (String × Tree)} (h : Ascending upper)
    (lower : List (String × Tree)) (k : String) :
    findKey? k (overlayEntries lower upper) =
      ((findKey? k upper).map (laid (findKey? k lower))).or (findKey? k lower) := by
  induction upper generalizing lower with
  | nil => simp [overlayEntries, findKey?]
  | cons e upper ih =>
    obtain ⟨k', t⟩ := e
    rw [overlayEntries_cons, ih (List.pairwise_cons.1 h).2, findKey?_putEntry]
    by_cases here : k = k'
    · subst here
      simp [findKey?, findKey?_head h]
    · simp [findKey?, here]

theorem at?_overlay {t : Tree} (h : t.Ordered) {path : List String} (below : Tree)
    (through : ∀ p u, p <+: path → p ≠ path → t.at? p = some u → u.isTable = true)
    (leaf : ∀ u, t.at? path = some u → u.isTable = false) :
    (overlay below t).at? path = (t.at? path).or (below.at? path) := by
  induction path generalizing t below with
  | nil =>
    rw [overlay_of_not_isTable (leaf t rfl)]
    rfl
  | cons k path ih =>
    have isTable := through [] t List.nil_prefix (List.cons_ne_nil k path).symm rfl
    have into {t' : Tree} (inner : findKey? k t.entries = some t') (p : List String) :
        t.at? (k :: p) = t'.at? p := by
      simp [Tree.at?, inner]
    simp only [Tree.at?, entries_overlay isTable, findKey?_overlayEntries h.ascending]
    cases inner : findKey? k t.entries with
    | none => rfl
    | some t' =>
      cases lower : findKey? k below.entries with
      | none => simp [laid]
      | some b =>
        refine ih (h.find inner) b (fun p u sub ne found => ?_) fun u found => ?_
        · exact through (k :: p) u (List.cons_prefix_cons.2 ⟨rfl, sub⟩) (by simpa using ne)
            ((into inner p).trans found)
        · exact leaf u ((into inner path).trans found)

theorem Ordered.nest {t : Tree} (h : t.Ordered) (s : Source) (path : List String) :
    (nest s t path).Ordered := by
  induction path with
  | nil => exact h
  | cons k path ih =>
    refine .table (by simp [Ascending]) fun e mem => ?_
    cases List.mem_singleton.1 mem
    exact ih

theorem at?_nest_cons (s : Source) (t : Tree) (k : String) (path : List String) (k' : String)
    (path' : List String) :
    (nest s t (k :: path)).at? (k' :: path') = if k' = k then (nest s t path).at? path' else none := by
  by_cases h : k' = k <;> simp [at?, nest, entries, findKey?, h]

/-- Neither path leads to the other, or to a place below it. -/
def Apart (p q : List String) : Prop := ¬ p <+: q ∧ ¬ q <+: p

instance (p q : List String) : Decidable (Apart p q) := inferInstanceAs (Decidable (_ ∧ _))

theorem apart_cons {k : String} {p q : List String} : Apart (k :: p) (k :: q) ↔ Apart p q := by
  simp [Apart, List.cons_prefix_cons]

theorem at?_nest_of_apart {path path' : List String} (h : Apart path path') (s : Source) (t : Tree) :
    (nest s t path).at? path' = none := by
  induction path generalizing path' with
  | nil => exact absurd List.nil_prefix h.1
  | cons k path ih =>
    cases path' with
    | nil => exact absurd List.nil_prefix h.2
    | cons k' path' =>
      rw [at?_nest_cons]
      split
      · rename_i same
        subst same
        exact ih (apart_cons.1 h)
      · rfl

/-- On the way to the value there are tables. -/
theorem isTable_of_nest {path path' : List String} (h : ¬ path <+: path') {s : Source} {t u : Tree}
    (found : (nest s t path).at? path' = some u) : u.isTable = true := by
  induction path generalizing path' with
  | nil => exact absurd List.nil_prefix h
  | cons k path ih =>
    cases path' with
    | nil => exact Option.some.inj found ▸ rfl
    | cons k' path' =>
      rw [at?_nest_cons] at found
      split at found
      · rename_i same
        subst same
        exact ih (fun sub => h (List.cons_prefix_cons.2 ⟨rfl, sub⟩)) found
      · contradiction

theorem overlay_nest_cons (below : Tree) (s : Source) (t : Tree) (k : String) (path : List String) :
    overlay below (nest s t (k :: path)) =
      table s (putEntry k (laid (findKey? k below.entries) (nest s t path)) below.entries) := by
  rw [nest, overlay_table, overlayEntries_cons]
  rfl

/-- Over the empty table a tree stands as it is. -/
theorem laid_nest (below : Option Tree) (s : Source) (t : Tree) (k : String) (path : List String) :
    laid below (nest s t (k :: path)) = overlay (below.getD (table s [])) (nest s t (k :: path)) := by
  cases below with
  | some b => rfl
  | none =>
    rw [Option.getD_none, overlay_nest_cons]
    rfl

theorem overlay_nest_comm {path path' : List String} (h : Apart path path') (below : Tree) (s : Source)
    (t t' : Tree) :
    overlay (overlay below (nest s t path)) (nest s t' path') =
      overlay (overlay below (nest s t' path')) (nest s t path) := by
  induction path generalizing below path' with
  | nil => exact absurd List.nil_prefix h.1
  | cons k path ih =>
    cases path' with
    | nil => exact absurd List.nil_prefix h.2
    | cons k' path' =>
      simp only [overlay_nest_cons, entries, findKey?_putEntry]
      by_cases same : k' = k
      · subst same
        have apart := apart_cons.1 h
        simp only [if_true, putEntry_putEntry]
        congr 2
        cases path with
        | nil => exact absurd List.nil_prefix apart.1
        | cons j path =>
          cases path' with
          | nil => exact absurd List.nil_prefix apart.2
          | cons j' path' =>
            simp only [laid_nest, Option.getD_some]
            exact ih apart _
      · rw [if_neg same, if_neg (Ne.symm same), putEntry_comm same]

end Clearance.Settings.Tree
