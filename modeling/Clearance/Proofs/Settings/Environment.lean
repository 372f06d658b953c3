import Mathlib.Data.List.Pairwise
import Clearance.Proofs.Settings.Assembly
import Clearance.Settings.Environment

/-!
The tree of the environment. Each variable gives a value at one path; at a setting's path the last one
counts that leads there, and variables that lead elsewhere do not.
-/
namespace Clearance.Settings
open Settings.Tree

theorem itemsLoop_all {α : Type} {item : Toml.Reader α} {close : Char} {P : α → Prop}
    (h : ∀ {s rest a}, item s = some (a, rest) → P a) {fuel : Nat} {taken : List α}
    (before : ∀ a ∈ taken, P a) {s rest : List Char} {l : List α}
    (read : itemsLoop item close fuel taken s = some (l, rest)) : ∀ a ∈ l, P a := by
  induction fuel generalizing taken s with
  | zero => cases read
  | succ fuel ih =>
    cases s with
    | nil => cases read
    | cons c s =>
      have closed {taken : List α} (before : ∀ a ∈ taken, P a) : ∀ a ∈ taken.reverse, P a :=
        fun a mem => before a (List.mem_reverse.1 mem)
      unfold itemsLoop at read
      split at read
      · cases read
        exact closed before
      · obtain ⟨⟨a, rest'⟩, item_read, read⟩ := Option.bind_eq_some_iff.1 read
        have more : ∀ b ∈ a :: taken, P b := List.forall_mem_cons.2 ⟨h item_read, before⟩
        dsimp only at read
        split at read
        · exact ih more read
        · split at read
          · cases read
            exact closed more
          · contradiction
        · contradiction

theorem ordered_foldl_put {l : List (String × Tree)} (h : ∀ e ∈ l, e.2.Ordered) {s : Source}
    {es : List (String × Tree)} (start : (table s es).Ordered) :
    (table s (l.foldl (fun es e => putEntry e.1 e.2 es) es)).Ordered := by
  induction l generalizing es with
  | nil => exact start
  | cons e l ih =>
    obtain ⟨head, rest⟩ := List.forall_mem_cons.1 h
    exact ih rest (ordered_put start head e.1)

theorem ordered_variableValue {depth : Nat} {s rest : List Char} {t : Tree}
    (read : variableValue depth s = some (t, rest)) : t.Ordered := by
  induction depth generalizing s rest t with
  | zero => cases read
  | succ depth ih =>
    simp only [variableValue, Option.bind_eq_bind, Option.bind_some] at read
    split at read
    · cases read
      exact .leaf
    · cases read
      exact .leaf
    · obtain ⟨⟨l, _⟩, items_read, given⟩ := Option.bind_eq_some_iff.1 read
      cases given
      refine ordered_foldl_put (itemsLoop_all (P := fun e => e.2.Ordered) ?_ (by simp) items_read)
        (.table .nil (by simp))
      intro s rest e read
      obtain ⟨_, _, read⟩ := Option.bind_eq_some_iff.1 read
      obtain ⟨_, _, read⟩ := Option.bind_eq_some_iff.1 read
      obtain ⟨_, value_read, given⟩ := Option.bind_eq_some_iff.1 read
      cases given
      exact ih value_read
    · obtain ⟨⟨l, _⟩, items_read, given⟩ := Option.bind_eq_some_iff.1 read
      cases given
      exact .list (itemsLoop_all ih (by simp) items_read)
    · obtain ⟨⟨_, _⟩, _, given⟩ := Option.bind_eq_some_iff.1 read
      cases given
      exact .leaf
    · cases read
      exact .leaf
    · cases read
    · cases read
      exact .leaf

theorem ordered_ofVariable (value : String) : (ofVariable value).Ordered := by
  unfold ofVariable
  split
  · rename_i read
    exact ordered_variableValue read
  · exact .leaf

/-- What one variable gives: its value, nested along the path of its name. -/
def contribution (v : String × String) : Option Tree :=
  (pathOf? v.1).map (Tree.nest .environment (ofVariable v.2))

theorem ordered_contribution {v : String × String} {t : Tree} (h : contribution v = some t) :
    t.Ordered := by
  obtain ⟨path, _, rfl⟩ := Option.map_eq_some_iff.1 h
  exact (ordered_ofVariable v.2).nest _ path

/-- Trees laid one over the other. -/
def stack (trees : List Tree) (below : Tree) : Tree := trees.foldl overlay below

theorem ofEnvironment_eq (e : Environment) :
    ofEnvironment e = stack (e.entries.filterMap contribution) (.table .environment []) := by
  unfold ofEnvironment stack
  rw [List.foldl_filterMap]
  congr 1
  funext t v
  obtain ⟨name, value⟩ := v
  simp only [contribution]
  cases pathOf? name <;> rfl

theorem ordered_stack {trees : List Tree} (h : ∀ t ∈ trees, t.Ordered) {below : Tree}
    (hb : below.Ordered) : (stack trees below).Ordered := by
  induction trees generalizing below with
  | nil => exact hb
  | cons t trees ih =>
    obtain ⟨head, rest⟩ := List.forall_mem_cons.1 h
    exact ih rest (head.overlay hb)

theorem ordered_ofEnvironment (e : Environment) : (ofEnvironment e).Ordered := by
  rw [ofEnvironment_eq]
  refine ordered_stack (fun t mem => ?_) (.table .nil (by simp))
  obtain ⟨v, _, given⟩ := List.mem_filterMap.1 mem
  exact ordered_contribution given

/-- A tree that has the sections only as tables. -/
structure Sectioned (t : Tree) : Prop where
  isTable : t.isTable = true
  sections : ∀ x : Setting, ∀ u ∈ t.at? [x.home], u.isTable = true

/-- A tree that has the sections only as tables, and the settings in them only as other values. -/
structure Shaped (t : Tree) : Prop extends Sectioned t where
  settings : ∀ x : Setting, ∀ u ∈ t.at? x.path, u.isTable = false

instance (t : Tree) : Decidable (Sectioned t) :=
  decidable_of_iff (_ ∧ _) ⟨fun h => ⟨h.1, h.2⟩, fun h => ⟨h.isTable, h.sections⟩⟩

instance (t : Tree) : Decidable (Shaped t) :=
  decidable_of_iff (_ ∧ _) ⟨fun h => ⟨h.1, h.2⟩, fun h => ⟨h.toSectioned, h.settings⟩⟩

theorem Shaped.at?_overlay {t : Tree} (h : Shaped t) (ordered : t.Ordered) (below : Tree)
    (x : Setting) : (below.overlay t).at? x.path = (t.at? x.path).or (below.at? x.path) := by
  refine Tree.at?_overlay ordered below (fun p u sub ne found => ?_) (h.settings x)
  rcases Setting.eq_of_prefix sub ne with rfl | rfl
  · exact Option.some.inj found ▸ h.isTable
  · exact h.sections x u found

theorem Sectioned.overlay {t below : Tree} (h : Sectioned t) (ordered : t.Ordered)
    (hb : Sectioned below) : Sectioned (below.overlay t) where
  isTable := (isTable_overlay below t).trans h.isTable
  sections x u found := by
    rw [Option.mem_def, at?_singleton, entries_overlay h.isTable, findKey?_overlayEntries ordered.ascending,
      Option.or_eq_some_iff, Option.map_eq_some_iff, ← at?_singleton, ← at?_singleton] at found
    rcases found with ⟨w, upper, rfl⟩ | ⟨_, lower⟩
    · have isTable := h.sections x w upper
      cases below.at? [x.home] with
      | none => exact isTable
      | some b => exact (isTable_overlay b w).trans isTable
    · exact hb.sections x u lower

theorem sectioned_stack {trees : List Tree} (h : ∀ t ∈ trees, t.Ordered ∧ Shaped t) {below : Tree}
    (hb : Sectioned below) : Sectioned (stack trees below) := by
  induction trees generalizing below with
  | nil => exact hb
  | cons t trees ih =>
    obtain ⟨⟨ordered, shaped⟩, rest⟩ := List.forall_mem_cons.1 h
    exact ih rest (shaped.toSectioned.overlay ordered hb)

theorem at?_stack {trees : List Tree} (h : ∀ t ∈ trees, t.Ordered ∧ Shaped t) (below : Tree)
    (x : Setting) :
    (stack trees below).at? x.path =
      ((trees.filterMap (·.at? x.path)).getLast?).or (below.at? x.path) := by
  induction trees generalizing below with
  | nil => rfl
  | cons t trees ih =>
    obtain ⟨⟨ordered, shaped⟩, rest⟩ := List.forall_mem_cons.1 h
    refine (ih rest (below.overlay t)).trans ?_
    rw [shaped.at?_overlay ordered, List.filterMap_cons]
    cases t.at? x.path with
    | none => rfl
    | some u =>
      rw [List.getLast?_cons]
      cases (trees.filterMap (·.at? x.path)).getLast? <;> rfl

/-- What the environment gives for a setting: the value of the last variable that leads there. -/
def Setting.given (x : Setting) (e : Environment) : Option Tree :=
  (e.entries.filterMap fun v => (contribution v).bind (·.at? x.path)).getLast?

/-- Variables that give the sections only as tables, and the settings in them only as other values. -/
def ShapedVariables (e : Environment) : Prop :=
  ∀ v ∈ e.entries, ∀ t ∈ contribution v, Shaped t

instance (e : Environment) : Decidable (ShapedVariables e) :=
  inferInstanceAs (Decidable (∀ v ∈ e.entries, _))

theorem sectioned_empty (s : Source) : Sectioned (.table s []) := ⟨rfl, fun _ _ found => nomatch found⟩

theorem ShapedVariables.contributions {e : Environment} (h : ShapedVariables e) :
    ∀ t ∈ e.entries.filterMap contribution, t.Ordered ∧ Shaped t := by
  intro t mem
  obtain ⟨v, of_entry, given⟩ := List.mem_filterMap.1 mem
  exact ⟨ordered_contribution given, h v of_entry t given⟩

theorem ShapedVariables.at?_ofEnvironment {e : Environment} (h : ShapedVariables e) (x : Setting) :
    (ofEnvironment e).at? x.path = x.given e := by
  rw [ofEnvironment_eq, at?_stack h.contributions, List.filterMap_filterMap]
  exact Option.or_none

theorem ShapedVariables.shaped {e : Environment} (h : ShapedVariables e) : Shaped (ofEnvironment e) where
  toSectioned := by
    rw [ofEnvironment_eq]
    exact sectioned_stack h.contributions (sectioned_empty _)
  settings x u found := by
    rw [h.at?_ofEnvironment] at found
    obtain ⟨v, mem, given⟩ := List.mem_filterMap.1 (List.mem_of_getLast? found)
    obtain ⟨t, contributed, found⟩ := Option.bind_eq_some_iff.1 given
    exact (h v mem t contributed).settings x u found

/-- A path that is neither on the way to a setting nor below one. -/
def Foreign (path : List String) : Prop := ∀ x ∈ Setting.all, Apart path x.path

instance (path : List String) : Decidable (Foreign path) := inferInstanceAs (Decidable (∀ x ∈ _, _))

/-- A variable that leads to a setting, to a place on the way to one or to one below it. -/
def isRelevant (v : String × String) : Bool := (pathOf? v.1).any fun path => !decide (Foreign path)

theorem contribution_foreign {v : String × String} (h : isRelevant v = false) (x : Setting) :
    (contribution v).bind (·.at? x.path) = none := by
  unfold contribution
  cases named : pathOf? v.1 with
  | none => rfl
  | some path =>
    have foreign : Foreign path := by simpa [isRelevant, named] using h
    exact at?_nest_of_apart (foreign x (Setting.mem_all x)) _ _

theorem shaped_foreign {v : String × String} (h : isRelevant v = false) {t : Tree}
    (given : contribution v = some t) : Shaped t := by
  obtain ⟨path, named, rfl⟩ := Option.map_eq_some_iff.1 given
  have foreign : Foreign path := by simpa [isRelevant, named] using h
  have on_the_way {p : List String} {x : Setting} (sub : p <+: x.path) {u : Tree}
      (found : (Tree.nest .environment (ofVariable v.2) path).at? p = some u) : u.isTable = true :=
    isTable_of_nest (fun sub' => (foreign x (Setting.mem_all x)).1 (sub'.trans sub)) found
  refine ⟨⟨on_the_way (x := .enabled) List.nil_prefix rfl, fun x u found => ?_⟩, fun x u found => ?_⟩
  · exact on_the_way (x := x) ⟨[x.key], rfl⟩ found
  · rw [at?_nest_of_apart (foreign x (Setting.mem_all x))] at found
    contradiction

theorem given_of_relevant {e e' : Environment}
    (same : e'.entries.filter isRelevant = e.entries.filter isRelevant) (x : Setting) :
    x.given e' = x.given e := by
  have relevant (e : Environment) : x.given e = ((e.entries.filter isRelevant).filterMap fun v =>
      (contribution v).bind (·.at? x.path)).getLast? := by
    rw [Setting.given, List.filterMap_filter]
    congr 2
    funext v
    split
    · rfl
    · rename_i foreign
      exact contribution_foreign (Bool.not_eq_true _ ▸ foreign) x
  rw [relevant, relevant, same]

theorem ShapedVariables.of_relevant {e e' : Environment} (h : ShapedVariables e)
    (same : e'.entries.filter isRelevant = e.entries.filter isRelevant) : ShapedVariables e' := by
  intro v mem t given
  cases relevant : isRelevant v with
  | false => exact shaped_foreign relevant given
  | true =>
    have kept := List.mem_filter.2 ⟨mem, relevant⟩
    rw [same] at kept
    exact h v (List.mem_filter.1 kept).1 t given

/-- Variables of which none leads to the place of another, or to one on the way there. -/
def Unrelated (e : Environment) : Prop :=
  e.entries.Pairwise fun v w => ∀ p ∈ pathOf? v.1, ∀ q ∈ pathOf? w.1, Apart p q

instance (e : Environment) : Decidable (Unrelated e) :=
  inferInstanceAs (Decidable (e.entries.Pairwise _))

/-- Two trees that may be laid over any third in either order. -/
def Commute (t u : Tree) : Prop := ∀ below : Tree, (below.overlay t).overlay u = (below.overlay u).overlay t

instance : Std.Symm Commute := ⟨fun _ _ h below => (h below).symm⟩

theorem ofEnvironment_perm {e e' : Environment} (perm : e'.entries.Perm e.entries)
    (unrelated : Unrelated e) : ofEnvironment e' = ofEnvironment e := by
  have contributions : (e.entries.filterMap contribution).Pairwise Commute := by
    refine List.pairwise_filterMap.2 (unrelated.imp fun {v w} apart t given u given' below => ?_)
    obtain ⟨p, named, rfl⟩ := Option.map_eq_some_iff.1 given
    obtain ⟨q, named', rfl⟩ := Option.map_eq_some_iff.1 given'
    exact overlay_nest_comm (apart p named q named') below _ _ _
  rw [ofEnvironment_eq, ofEnvironment_eq]
  refine ((perm.filterMap contribution).symm.foldl_eq' ?_ _).symm
  intro t ht u hu below
  exact contributions.forall_of_forall (fun _ _ _ => rfl) ht hu below

end Clearance.Settings
