import Clearance.Proofs.Table
import Clearance.Toml.Document

/-!
However a document is written, every table in it has each key once, in ascending order. The tables are
built up by one entry after another, so this is carried through every step of the reader.
-/
namespace Clearance.Toml

inductive Value.Ordered : Value → Prop where
  | text {s : String} : Ordered (.text s)
  | boolean {b : Bool} : Ordered (.boolean b)
  | integer {i : Int} : Ordered (.integer i)
  | real {x : Float} : Ordered (.real x)
  | moment {written : String} : Ordered (.moment written)
  | list {l : List Value} : (∀ v ∈ l, Ordered v) → Ordered (.list l)
  | table {l : List (String × Value)} : Ascending l → (∀ e ∈ l, Ordered e.2) → Ordered (.table l)

inductive Node.Ordered : Node → Prop where
  | value {v : Value} : v.Ordered → Ordered (.value v)
  | table {implicit dotted : Bool} {l : List (String × Node)} : Ascending l → (∀ e ∈ l, Ordered e.2) →
    Ordered (.table implicit dotted l)
  | tables {items : List (List (String × Node))} : (∀ l ∈ items, Ascending l) →
    (∀ l ∈ items, ∀ e ∈ l, Ordered e.2) → Ordered (.tables items)

structure OrderedEntries (l : Entries) : Prop where
  ascending : Ascending l
  inner : ∀ e ∈ l, e.2.Ordered

theorem OrderedEntries.nil : OrderedEntries [] := ⟨.nil, fun _ h => nomatch h⟩

theorem OrderedEntries.put {l : Entries} (h : OrderedEntries l) {n : Node} (hn : n.Ordered) (k : String) :
    OrderedEntries (putEntry k n l) where
  ascending := ascending_putEntry h.ascending
  inner e mem := by
    rcases key_mem_putEntry mem with rfl | old
    · exact hn
    · exact h.inner e old

theorem OrderedEntries.find {l : Entries} (h : OrderedEntries l) {k : String} {n : Node}
    (found : findKey? k l = some n) : n.Ordered :=
  h.inner (k, n) ((mem_iff_findKey? h.ascending k n).2 found)

theorem Node.Ordered.entries {implicit dotted : Bool} {l : Entries}
    (h : (Node.table implicit dotted l).Ordered) : OrderedEntries l := by
  cases h with
  | table ascending inner => exact ⟨ascending, inner⟩

theorem Node.Ordered.items {items : List Entries} (h : (Node.tables items).Ordered) :
    ∀ l ∈ items, OrderedEntries l := by
  cases h with
  | tables ascending inner => exact fun l hl => ⟨ascending l hl, inner l hl⟩

theorem OrderedEntries.table {l : Entries} (h : OrderedEntries l) {implicit dotted : Bool} :
    (Node.table implicit dotted l).Ordered :=
  .table h.ascending h.inner

theorem ordered_tables {items : List Entries} (h : ∀ l ∈ items, OrderedEntries l) :
    (Node.tables items).Ordered :=
  .tables (fun l hl => (h l hl).ascending) (fun l hl => (h l hl).inner)

theorem ordered_within {byKey : Bool} {change : Bool → Entries → Option Entries}
    (keeps : ∀ dotted l l', OrderedEntries l → change dotted l = some l' → OrderedEntries l')
    {path : List String} {dotted : Bool} {l l' : Entries} (h : OrderedEntries l)
    (changed : within byKey change path dotted l = some l') : OrderedEntries l' := by
  induction path generalizing dotted l l' with
  | nil => exact keeps dotted l l' h changed
  | cons k path ih =>
    unfold within at changed
    split at changed
    · obtain ⟨inner, made, put⟩ := Option.bind_eq_some_iff.1 changed
      cases put
      exact h.put (ih .nil made).table k
    · contradiction
    · rename_i found
      split at changed
      · contradiction
      · obtain ⟨inner, made, put⟩ := Option.bind_eq_some_iff.1 changed
        cases put
        exact h.put (ih (h.find found).entries made).table k
    · rename_i items found
      have ordered := (h.find found).items
      obtain ⟨last, is_last, changed⟩ := Option.bind_eq_some_iff.1 changed
      obtain ⟨inner, made, put⟩ := Option.bind_eq_some_iff.1 changed
      cases put
      refine h.put (ordered_tables fun l hl => ?_) k
      rcases List.mem_append.1 hl with old | new
      · exact ordered l (List.dropLast_subset _ old)
      · cases List.mem_singleton.1 new
        exact ih (ordered last (List.mem_of_getLast? is_last)) made

theorem ordered_assign {path : List String} {v : Value} {l l' : Entries} (h : OrderedEntries l)
    (hv : v.Ordered) (changed : assign path v l = some l') : OrderedEntries l' := by
  obtain ⟨last, _, changed⟩ := Option.bind_eq_some_iff.1 changed
  refine ordered_within (fun dotted l l' h changed => ?_) h changed
  split at changed
  · contradiction
  · split at changed
    · contradiction
    · cases changed
      exact h.put (.value hv) last

theorem ordered_openTable {path : List String} {l l' : Entries} (h : OrderedEntries l)
    (changed : openTable path l = some l') : OrderedEntries l' := by
  obtain ⟨last, _, changed⟩ := Option.bind_eq_some_iff.1 changed
  refine ordered_within (fun _ l l' h changed => ?_) h changed
  split at changed
  · cases changed
    exact h.put OrderedEntries.nil.table last
  · rename_i found
    cases changed
    exact h.put (h.find found).entries.table last
  · contradiction

theorem ordered_openItem {path : List String} {l l' : Entries} (h : OrderedEntries l)
    (changed : openItem path l = some l') : OrderedEntries l' := by
  obtain ⟨last, _, changed⟩ := Option.bind_eq_some_iff.1 changed
  refine ordered_within (fun _ l l' h changed => ?_) h changed
  split at changed
  · cases changed
    exact h.put (ordered_tables (List.forall_mem_singleton.2 .nil)) last
  · rename_i found
    cases changed
    refine h.put (ordered_tables (List.forall_mem_append.2 ⟨(h.find found).items, ?_⟩)) last
    exact List.forall_mem_singleton.2 .nil
  · contradiction

theorem entryValues_eq (l : Entries) : Node.entryValues l = l.map fun e => (e.1, e.2.toValue) := by
  induction l with
  | nil => rfl
  | cons e l ih => rw [Node.entryValues, ih, List.map_cons]

theorem itemValues_eq (items : List Entries) :
    Node.itemValues items = items.map fun l => .table (Node.entryValues l) := by
  induction items with
  | nil => rfl
  | cons l items ih => rw [Node.itemValues, ih, List.map_cons]

theorem ascending_entryValues {l : Entries} (h : Ascending l) : Ascending (Node.entryValues l) := by
  rw [entryValues_eq]
  exact List.pairwise_map.2 h

theorem Node.Ordered.toValue {n : Node} (h : n.Ordered) : n.toValue.Ordered := by
  induction h with
  | value h => exact h
  | table ascending _ ih =>
    refine .table (ascending_entryValues ascending) ?_
    rw [entryValues_eq]
    exact List.forall_mem_map.2 ih
  | tables ascending _ ih =>
    refine .list ?_
    rw [itemValues_eq]
    refine List.forall_mem_map.2 fun l hl => .table (ascending_entryValues (ascending l hl)) ?_
    rw [entryValues_eq]
    exact List.forall_mem_map.2 (ih l hl)

theorem OrderedEntries.entryValues {l : Entries} (h : OrderedEntries l) :
    (Value.table (Node.entryValues l)).Ordered :=
  (@Node.Ordered.table false false l h.ascending h.inner).toValue

/-- What a reader gives is ordered. -/
def ReadsOrdered (read : Reader Value) : Prop :=
  ∀ {s rest : List Char} {v : Value}, read s = some (v, rest) → v.Ordered

theorem ordered_integer? {i : Int} {v : Value} (h : integer? i = some v) : v.Ordered := by
  unfold integer? at h
  split at h
  · cases h
    exact .integer
  · contradiction

theorem ordered_real? {negative : Bool} {ds : List Char} {power : Int} {v : Value}
    (h : real? negative ds power = some v) : v.Ordered := by
  simp only [real?] at h
  split at h
  · contradiction
  · cases h
    exact .real

/-- The last step of a reader: a value that may be refused. -/
theorem ordered_bind {r : Option Value} (h : ∀ v, r = some v → v.Ordered) {v : Value}
    {rest rest' : List Char} (read : (r.bind fun v => some (v, rest')) = some (v, rest)) :
    v.Ordered := by
  obtain ⟨v', made, given⟩ := Option.bind_eq_some_iff.1 read
  cases given
  exact h v made

theorem readsOrdered_based (base : Nat) (isDigit : Char → Bool) :
    ReadsOrdered (based base isDigit) := by
  intro s rest v read
  obtain ⟨_, _, read⟩ := Option.bind_eq_some_iff.1 read
  exact ordered_bind (fun _ => ordered_integer?) read

theorem readsOrdered_unsigned (negative : Bool) : ReadsOrdered (unsigned negative) := by
  intro s rest v read
  unfold unsigned at read
  split at read
  · cases read
    exact .real
  · cases read
    exact .real
  · obtain ⟨⟨ds, rest⟩, _, read⟩ := Option.bind_eq_some_iff.1 read
    simp only at read
    split at read
    · obtain ⟨⟨fs, rest⟩, _, read⟩ := Option.bind_eq_some_iff.1 read
      simp only at read
      split at read
      · obtain ⟨_, _, read⟩ := Option.bind_eq_some_iff.1 read
        exact ordered_bind (fun _ => ordered_real?) read
      · obtain ⟨_, _, read⟩ := Option.bind_eq_some_iff.1 read
        exact ordered_bind (fun _ => ordered_real?) read
      · exact ordered_bind (fun _ => ordered_real?) read
    · obtain ⟨_, _, read⟩ := Option.bind_eq_some_iff.1 read
      exact ordered_bind (fun _ => ordered_real?) read
    · obtain ⟨_, _, read⟩ := Option.bind_eq_some_iff.1 read
      exact ordered_bind (fun _ => ordered_real?) read
    · exact ordered_bind (fun _ => ordered_integer?) read

theorem readsOrdered_number : ReadsOrdered number := by
  intro s rest v read
  unfold number at read
  split at read
  · exact readsOrdered_unsigned _ read
  · exact readsOrdered_unsigned _ read
  · exact readsOrdered_based _ _ read
  · exact readsOrdered_based _ _ read
  · exact readsOrdered_based _ _ read
  · exact readsOrdered_unsigned _ read

/-- A reader of texts, with what it reads made a value. -/
theorem ordered_map {α : Type} {f : α × List Char → Value × List Char} {r : Option (α × List Char)}
    (h : ∀ a, (f a).1.Ordered) {v : Value} {rest : List Char} (read : r.map f = some (v, rest)) :
    v.Ordered := by
  obtain ⟨a, _, made⟩ := Option.map_eq_some_iff.1 read
  have same : (f a).1 = v := congrArg Prod.fst made
  exact same ▸ h a

theorem readsOrdered_scalar : ReadsOrdered scalar := by
  intro s rest v read
  unfold scalar at read
  split at read
  · cases read
    exact .boolean
  · cases read
    exact .boolean
  · exact ordered_map (fun _ => .text) read
  · exact ordered_map (fun _ => .text) read
  · exact ordered_map (fun _ => .text) read
  · exact ordered_map (fun _ => .text) read
  · split at read
    · obtain ⟨_, _, made⟩ := Option.map_eq_some_iff.1 read
      cases made
      exact .moment
    · exact readsOrdered_number read

theorem readsOrdered_listTail {item : Reader Value} (h : ReadsOrdered item) (fuel : Nat)
    {taken : List Value} (ordered : ∀ v ∈ taken, v.Ordered) :
    ReadsOrdered (listTail item fuel taken) := by
  induction fuel generalizing taken with
  | zero =>
    intro s rest v read
    cases read
  | succ fuel ih =>
    intro s rest v read
    have closed {l : List Value} (hl : ∀ v ∈ l, v.Ordered) : (Value.list l.reverse).Ordered :=
      .list fun v mem => hl v (List.mem_reverse.1 mem)
    unfold listTail at read
    split at read
    · cases read
      exact closed ordered
    · obtain ⟨⟨v', rest'⟩, item_read, read⟩ := Option.bind_eq_some_iff.1 read
      have more : ∀ v ∈ v' :: taken, v.Ordered := List.forall_mem_cons.2 ⟨h item_read, ordered⟩
      simp only at read
      split at read
      · cases read
        exact closed more
      · exact ih more read
      · contradiction

theorem ordered_assignment {item : Reader Value} (h : ReadsOrdered item) {s rest : List Char}
    {path : List String} {v : Value} (read : assignment item s = some ((path, v), rest)) :
    v.Ordered := by
  obtain ⟨_, _, read⟩ := Option.bind_eq_some_iff.1 read
  obtain ⟨_, _, read⟩ := Option.bind_eq_some_iff.1 read
  obtain ⟨⟨v', _⟩, item_read, given⟩ := Option.bind_eq_some_iff.1 read
  cases given
  exact h item_read

theorem readsOrdered_tableTail {item : Reader Value} (h : ReadsOrdered item) (fuel : Nat)
    {entries : Entries} (ordered : OrderedEntries entries) :
    ReadsOrdered (tableTail item fuel entries) := by
  induction fuel generalizing entries with
  | zero =>
    intro s rest v read
    cases read
  | succ fuel ih =>
    intro s rest v read
    obtain ⟨⟨⟨path, v'⟩, rest'⟩, assigned, read⟩ := Option.bind_eq_some_iff.1 read
    obtain ⟨entries', changed, read⟩ := Option.bind_eq_some_iff.1 read
    have more := ordered_assign ordered (ordered_assignment h assigned) changed
    split at read
    · cases read
      exact more.entryValues
    · exact ih more read
    · contradiction

theorem readsOrdered_value (depth : Nat) : ReadsOrdered (value depth) := by
  induction depth with
  | zero =>
    intro s rest v read
    unfold value at read
    split at read
    · contradiction
    · contradiction
    · exact readsOrdered_scalar read
  | succ depth ih =>
    intro s rest v read
    unfold value at read
    split at read
    · exact readsOrdered_listTail ih _ (by simp) read
    · split at read
      · cases read
        exact .table .nil (by simp)
      · exact readsOrdered_tableTail ih _ .nil read
    · exact readsOrdered_scalar read

theorem ordered_header {s rest : List Char} {entries entries' : Entries} {path : List String}
    (h : OrderedEntries entries) (read : header s entries = some (path, entries', rest)) :
    OrderedEntries entries' := by
  unfold header at read
  split at read
  · obtain ⟨_, _, read⟩ := Option.bind_eq_some_iff.1 read
    obtain ⟨_, _, read⟩ := Option.bind_eq_some_iff.1 read
    obtain ⟨_, _, read⟩ := Option.bind_eq_some_iff.1 read
    obtain ⟨_, _, read⟩ := Option.bind_eq_some_iff.1 read
    obtain ⟨_, opened, given⟩ := Option.bind_eq_some_iff.1 read
    cases given
    exact ordered_openItem h opened
  · obtain ⟨_, _, read⟩ := Option.bind_eq_some_iff.1 read
    obtain ⟨_, _, read⟩ := Option.bind_eq_some_iff.1 read
    obtain ⟨_, _, read⟩ := Option.bind_eq_some_iff.1 read
    obtain ⟨_, opened, given⟩ := Option.bind_eq_some_iff.1 read
    cases given
    exact ordered_openTable h opened
  · contradiction

theorem ordered_linesFrom {fuel : Nat} {here : List String} {s : List Char} {entries entries' : Entries}
    (h : OrderedEntries entries) (read : linesFrom fuel here entries s = some entries') :
    OrderedEntries entries' := by
  induction fuel generalizing here entries s with
  | zero => cases read
  | succ fuel ih =>
    unfold linesFrom at read
    split at read
    · cases read
      exact h
    · obtain ⟨⟨here', entries'', rest⟩, read_header, read⟩ := Option.bind_eq_some_iff.1 read
      exact ih (ordered_header h read_header) read
    · split at read
      · obtain ⟨_, _, read⟩ := Option.bind_eq_some_iff.1 read
        exact ih h read
      · obtain ⟨⟨⟨path, v⟩, rest⟩, assigned, read⟩ := Option.bind_eq_some_iff.1 read
        obtain ⟨entries'', changed, read⟩ := Option.bind_eq_some_iff.1 read
        obtain ⟨_, _, read⟩ := Option.bind_eq_some_iff.1 read
        have hv := ordered_assignment (readsOrdered_value _) assigned
        exact ih (ordered_within (fun _ _ _ h => ordered_assign h hv) h changed) read

/-- The table of a document is ordered, and so is every table in it. -/
theorem ordered_parse {t : String} {entries : List (String × Value)} (h : parse t = some entries) :
    (Value.table entries).Ordered := by
  obtain ⟨built, read, rfl⟩ := Option.map_eq_some_iff.1 h
  exact (ordered_linesFrom .nil read).entryValues

end Clearance.Toml
