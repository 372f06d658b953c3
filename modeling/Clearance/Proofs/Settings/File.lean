import Clearance.Proofs.Settings.Environment
import Clearance.Proofs.Toml.Ordered
import Clearance.Settings.Load

/-!
The tree of a file. It has at each setting's path what the file's table has there, as long as no key of
a section is special.
-/
namespace Clearance

namespace Toml.Value

def isTable : Value → Bool
  | table _ => true
  | _ => false

def entries : Value → List (String × Value)
  | table l => l
  | _ => []

@[simp] theorem entries_table (l : List (String × Value)) : (table l).entries = l := rfl

def at? (v : Value) : List String → Option Value
  | [] => some v
  | k :: path => (findKey? k v.entries).bind (at? · path)

theorem at?_singleton (v : Value) (k : String) : v.at? [k] = findKey? k v.entries := by
  simp [at?]

theorem at?_cons (v : Value) (k : String) (path : List String) :
    v.at? (k :: path) = (v.at? [k]).bind (·.at? path) := by
  rw [at?_singleton, at?]

theorem at?_append (v : Value) (path path' : List String) :
    v.at? (path ++ path') = (v.at? path).bind (·.at? path') := by
  induction path generalizing v with
  | nil => rfl
  | cons k path ih =>
    rw [List.cons_append, at?, at?]
    cases findKey? k v.entries with
    | none => rfl
    | some w => exact ih w

/-- No table in the value has the key that none may have. -/
inductive Unreserved : Value → Prop where
  | text {s : String} : Unreserved (.text s)
  | boolean {b : Bool} : Unreserved (.boolean b)
  | integer {i : Int} : Unreserved (.integer i)
  | real {x : Float} : Unreserved (.real x)
  | moment {written : String} : Unreserved (.moment written)
  | list {l : List Value} : (∀ v ∈ l, Unreserved v) → Unreserved (.list l)
  | table {l : List (String × Value)} : findKey? Settings.Tree.reservedKey l = none →
    (∀ e ∈ l, Unreserved e.2) → Unreserved (.table l)

/-! Values are compared by a computation, so that what a text gives can be decided. -/

mutual
/-- Whether two values are seen to be the same. Numbers with a point are not compared. -/
def same : Value → Value → Bool
  | text s, text s' => s == s'
  | boolean b, boolean b' => b == b'
  | integer i, integer i' => i == i'
  | moment s, moment s' => s == s'
  | list l, list l' => sameItems l l'
  | table l, table l' => sameEntries l l'
  | _, _ => false

def sameItems : List Value → List Value → Bool
  | [], [] => true
  | v :: l, v' :: l' => v.same v' && sameItems l l'
  | _, _ => false

def sameEntries : List (String × Value) → List (String × Value) → Bool
  | [], [] => true
  | (k, v) :: l, (k', v') :: l' => k == k' && v.same v' && sameEntries l l'
  | _, _ => false
end

mutual
theorem eq_of_same : ∀ {v v' : Value}, v.same v' = true → v = v'
  | text _, text _, h | boolean _, boolean _, h | integer _, integer _, h
  | moment _, moment _, h => by
    simp only [same, beq_iff_eq] at h
    rw [h]
  | list _, list _, h => by
    simp only [same] at h
    rw [eq_of_sameItems h]
  | table _, table _, h => by
    simp only [same] at h
    rw [eq_of_sameEntries h]

theorem eq_of_sameItems : ∀ {l l' : List Value}, sameItems l l' = true → l = l'
  | [], [], _ => rfl
  | _ :: _, _ :: _, h => by
    simp only [sameItems, Bool.and_eq_true] at h
    rw [eq_of_same h.1, eq_of_sameItems h.2]

theorem eq_of_sameEntries : ∀ {l l' : List (String × Value)}, sameEntries l l' = true → l = l'
  | [], [], _ => rfl
  | (_, _) :: _, (_, _) :: _, h => by
    simp only [sameEntries, Bool.and_eq_true, beq_iff_eq] at h
    rw [h.1.1, eq_of_same h.1.2, eq_of_sameEntries h.2]
end

end Toml.Value

theorem Toml.parse_of_same {text : String} {l : List (String × Value)}
    (h : (parse text).any (Value.sameEntries · l) = true) : parse text = some l := by
  obtain ⟨l', parsed, same⟩ := (Option.any_eq_true _ _).1 h
  rw [parsed, Value.eq_of_sameEntries same]

namespace Settings
open Settings.Tree

section
variable {src : Source}

theorem ofTomlEntries_cons {e : String × Toml.Value} {l : List (String × Toml.Value)}
    {l' : List (String × Tree)} (h : ofTomlEntries src (e :: l) = some l') :
    ∃ t rest, ofToml src e.2 = some t ∧ ofTomlEntries src l = some rest ∧ l' = (e.1, t) :: rest := by
  obtain ⟨t, made, h⟩ := Option.bind_eq_some_iff.1 h
  obtain ⟨rest, made', given⟩ := Option.bind_eq_some_iff.1 h
  exact ⟨t, rest, made, made', (Option.some.inj given).symm⟩

theorem ofTomlItems_cons {v : Toml.Value} {l : List Toml.Value} {l' : List Tree}
    (h : ofTomlItems src (v :: l) = some l') :
    ∃ t rest, ofToml src v = some t ∧ ofTomlItems src l = some rest ∧ l' = t :: rest := by
  obtain ⟨t, made, h⟩ := Option.bind_eq_some_iff.1 h
  obtain ⟨rest, made', given⟩ := Option.bind_eq_some_iff.1 h
  exact ⟨t, rest, made, made', (Option.some.inj given).symm⟩

/-- What is found under a key of the trees, next to what is found in the file. -/
theorem findKey?_ofTomlEntries {l : List (String × Toml.Value)} {l' : List (String × Tree)}
    (h : ofTomlEntries src l = some l') (k : String) :
    (findKey? k l = none ∧ findKey? k l' = none) ∨
      ∃ v t, findKey? k l = some v ∧ findKey? k l' = some t ∧ ofToml src v = some t := by
  induction l generalizing l' with
  | nil =>
    cases h
    exact .inl ⟨rfl, rfl⟩
  | cons e l ih =>
    obtain ⟨t, rest, made, made', rfl⟩ := ofTomlEntries_cons h
    simp only [findKey?]
    split
    · exact .inr ⟨e.2, t, rfl, rfl, made⟩
    · exact ih made'

theorem findKey?_ofTomlEntries_none {l : List (String × Toml.Value)} {l' : List (String × Tree)}
    (h : ofTomlEntries src l = some l') {k : String} (absent : findKey? k l = none) :
    findKey? k l' = none := by
  rcases findKey?_ofTomlEntries h k with ⟨_, none⟩ | ⟨v, _, some, _⟩
  · exact none
  · rw [absent] at some
    contradiction

theorem mem_ofTomlEntries {l : List (String × Toml.Value)} {l' : List (String × Tree)}
    (h : ofTomlEntries src l = some l') : ∀ e' ∈ l', ∃ e ∈ l, ofToml src e.2 = some e'.2 := by
  induction l generalizing l' with
  | nil =>
    cases h
    exact fun _ mem => nomatch mem
  | cons e l ih =>
    obtain ⟨t, rest, made, made', rfl⟩ := ofTomlEntries_cons h
    refine List.forall_mem_cons.2 ⟨⟨e, List.mem_cons_self, made⟩, fun e' mem => ?_⟩
    obtain ⟨e'', mem', made''⟩ := ih made' e' mem
    exact ⟨e'', List.mem_cons_of_mem _ mem', made''⟩

theorem ascending_ofTomlEntries {l : List (String × Toml.Value)} {l' : List (String × Tree)}
    (h : ofTomlEntries src l = some l') (ascending : Ascending l) : Ascending l' := by
  have keys : l'.map Prod.fst = l.map Prod.fst := by
    clear ascending
    induction l generalizing l' with
    | nil =>
      cases h
      rfl
    | cons e l ih =>
      obtain ⟨t, rest, _, made, rfl⟩ := ofTomlEntries_cons h
      rw [List.map_cons, List.map_cons, ih made]
  have ordered : (l.map Prod.fst).Pairwise fun a b => compare a b = .lt := List.pairwise_map.2 ascending
  exact List.pairwise_map.1 (keys ▸ ordered)

theorem mem_ofTomlItems {l : List Toml.Value} {l' : List Tree} (h : ofTomlItems src l = some l') :
    ∀ t ∈ l', ∃ v ∈ l, ofToml src v = some t := by
  induction l generalizing l' with
  | nil =>
    cases h
    exact fun _ mem => nomatch mem
  | cons v l ih =>
    obtain ⟨t, rest, made, made', rfl⟩ := ofTomlItems_cons h
    refine List.forall_mem_cons.2 ⟨⟨v, List.mem_cons_self, made⟩, fun t' mem => ?_⟩
    obtain ⟨v', mem', made''⟩ := ih made' t' mem
    exact ⟨v', List.mem_cons_of_mem _ mem', made''⟩

theorem ordered_table_ofTomlEntries {l : List (String × Toml.Value)} {l' : List (String × Tree)}
    (h : ofTomlEntries src l = some l') (ascending : Ascending l)
    (inner : ∀ e ∈ l, ∀ {t : Tree}, ofToml src e.2 = some t → t.Ordered) :
    (Tree.table src l').Ordered := by
  refine .table (ascending_ofTomlEntries h ascending) fun e' mem => ?_
  obtain ⟨e, mem', made⟩ := mem_ofTomlEntries h e' mem
  exact inner e mem' made

theorem ordered_ofToml {v : Toml.Value} (h : v.Ordered) {t : Tree} (made : ofToml src v = some t) :
    t.Ordered := by
  induction h generalizing t with
  | list _ ih =>
    simp only [ofToml, Option.map_eq_some_iff] at made
    obtain ⟨l', made, rfl⟩ := made
    refine .list fun t mem => ?_
    obtain ⟨v, mem', made'⟩ := mem_ofTomlItems made t mem
    exact ih v mem' made'
  | table ascending _ ih =>
    simp only [ofToml, Option.bind_eq_bind, Option.bind_eq_some_iff] at made
    obtain ⟨l', made, special⟩ := made
    have ordered := ordered_table_ofTomlEntries made ascending ih
    split at special
    · contradiction
    · rename_i found
      cases special
      exact ordered.find found
    · cases special
      exact ordered
  | moment =>
    simp only [ofToml, Option.some.injEq] at made
    subst made
    exact .table (by simp [Ascending]) (by simp [Ordered.leaf])
  | _ =>
    simp only [ofToml, Option.some.injEq] at made
    subst made
    exact .leaf

theorem exists_ofTomlEntries {l : List (String × Toml.Value)}
    (h : ∀ e ∈ l, ∃ t, ofToml src e.2 = some t) : ∃ l', ofTomlEntries src l = some l' := by
  induction l with
  | nil => exact ⟨[], rfl⟩
  | cons e l ih =>
    obtain ⟨⟨t, made⟩, rest⟩ := List.forall_mem_cons.1 h
    obtain ⟨l', made'⟩ := ih rest
    exact ⟨(e.1, t) :: l', by simp [ofTomlEntries, made, made']⟩

theorem exists_ofTomlItems {l : List Toml.Value} (h : ∀ v ∈ l, ∃ t, ofToml src v = some t) :
    ∃ l', ofTomlItems src l = some l' := by
  induction l with
  | nil => exact ⟨[], rfl⟩
  | cons v l ih =>
    obtain ⟨⟨t, made⟩, rest⟩ := List.forall_mem_cons.1 h
    obtain ⟨l', made'⟩ := ih rest
    exact ⟨t :: l', by simp [ofTomlItems, made, made']⟩

/-- Nothing else can keep a value from being a tree. -/
theorem exists_ofToml {v : Toml.Value} (h : v.Unreserved) : ∃ t, ofToml src v = some t := by
  induction h with
  | list _ ih =>
    obtain ⟨l', made⟩ := exists_ofTomlItems ih
    exact ⟨.list src l', by simp [ofToml, made]⟩
  | table unreserved _ ih =>
    obtain ⟨l', made⟩ := exists_ofTomlEntries ih
    have absent := findKey?_ofTomlEntries_none made unreserved
    cases special : findKey? valueKey l' with
    | none => exact ⟨.table src l', by simp [ofToml, made, absent, special]⟩
    | some t => exact ⟨t, by simp [ofToml, made, absent, special]⟩
  | _ => exact ⟨_, rfl⟩

theorem unreserved_of_ofTomlEntries {l : List (String × Toml.Value)} {l' : List (String × Tree)}
    (made : ofTomlEntries src l = some l')
    (inner : ∀ e ∈ l, ∀ {t : Tree}, ofToml src e.2 = some t → e.2.Unreserved) :
    ∀ e ∈ l, e.2.Unreserved := by
  induction l generalizing l' with
  | nil => exact fun _ mem => nomatch mem
  | cons e l ih =>
    obtain ⟨t, rest, made, made', _⟩ := ofTomlEntries_cons made
    obtain ⟨head, tail⟩ := List.forall_mem_cons.1 inner
    exact List.forall_mem_cons.2 ⟨head made, ih made' tail⟩

theorem unreserved_of_ofTomlItems {l : List Toml.Value} {l' : List Tree}
    (made : ofTomlItems src l = some l')
    (inner : ∀ v ∈ l, ∀ {t : Tree}, ofToml src v = some t → v.Unreserved) : ∀ v ∈ l, v.Unreserved := by
  induction l generalizing l' with
  | nil => exact fun _ mem => nomatch mem
  | cons v l ih =>
    obtain ⟨t, rest, made, made', _⟩ := ofTomlItems_cons made
    obtain ⟨head, tail⟩ := List.forall_mem_cons.1 inner
    exact List.forall_mem_cons.2 ⟨head made, ih made' tail⟩

/-- The induction is on the value's being ordered, as the values of any document are. -/
theorem unreserved_of_ofToml {v : Toml.Value} (h : v.Ordered) {t : Tree} (made : ofToml src v = some t) :
    v.Unreserved := by
  induction h generalizing t with
  | list _ ih =>
    obtain ⟨l', made, _⟩ := Option.map_eq_some_iff.1 made
    exact .list (unreserved_of_ofTomlItems made ih)
  | table _ _ ih =>
    obtain ⟨l', made, special⟩ := Option.bind_eq_some_iff.1 made
    refine .table ?_ (unreserved_of_ofTomlEntries made ih)
    rcases findKey?_ofTomlEntries made reservedKey with ⟨absent, _⟩ | ⟨_, _, _, reserved, _⟩
    · exact absent
    · rw [reserved] at special
      contradiction
  | _ => constructor

/-- A document makes a tree unless it has the reserved key somewhere below its top table. -/
theorem exists_ofDocument_iff {l : List (String × Toml.Value)} (ordered : (Toml.Value.table l).Ordered) :
    (∃ t, ofDocument src l = some t) ↔ ∀ e ∈ l, e.2.Unreserved := by
  constructor
  · rintro ⟨t, document⟩
    obtain ⟨l', made, _⟩ := Option.map_eq_some_iff.1 document
    cases ordered with
    | table _ inner =>
      exact unreserved_of_ofTomlEntries made fun e mem => unreserved_of_ofToml (inner e mem)
  · intro h
    have all : ∀ e ∈ l, ∃ t, ofToml src e.2 = some t := fun e mem => exists_ofToml (h e mem)
    obtain ⟨l', made⟩ := exists_ofTomlEntries all
    exact ⟨.table src l', by simp [ofDocument, made]⟩

/-- A file's table that has the sections only as tables, in which no key stands for the section, and
the settings in them only as other values. -/
structure ShapedFile (l : List (String × Toml.Value)) : Prop where
  sections : ∀ x : Setting, ∀ v ∈ (Toml.Value.table l).at? [x.home],
    v.isTable = true ∧ findKey? valueKey v.entries = none
  settings : ∀ x : Setting, ∀ v ∈ (Toml.Value.table l).at? x.path, v.isTable = false

instance (l : List (String × Toml.Value)) : Decidable (ShapedFile l) :=
  decidable_of_iff (_ ∧ _) ⟨fun h => ⟨h.1, h.2⟩, fun h => ⟨h.sections, h.settings⟩⟩

theorem ofToml_table {v : Toml.Value} (isTable : v.isTable = true)
    (plain : findKey? valueKey v.entries = none) {t : Tree} (made : ofToml src v = some t) :
    ∃ l', ofTomlEntries src v.entries = some l' ∧ t = .table src l' := by
  cases v with
  | table l =>
    simp only [ofToml, Option.bind_eq_bind, Option.bind_eq_some_iff] at made
    obtain ⟨l', made, special⟩ := made
    rw [findKey?_ofTomlEntries_none made plain] at special
    split at special
    · contradiction
    · contradiction
    · cases special
      exact ⟨l', made, rfl⟩
  | _ => contradiction

theorem sectioned_ofDocument {l : List (String × Toml.Value)} (shaped : ShapedFile l) {t : Tree}
    (h : ofDocument src l = some t) : Sectioned t := by
  obtain ⟨l', made, rfl⟩ := Option.map_eq_some_iff.1 h
  refine ⟨rfl, fun x u found => ?_⟩
  rw [at?_singleton] at found
  rcases findKey?_ofTomlEntries made x.home with ⟨_, none⟩ | ⟨v, t, given, found', made'⟩
  · cases none.symm.trans found
  · cases found'.symm.trans found
    obtain ⟨isTable, plain⟩ := shaped.sections x v (Toml.Value.at?_singleton _ _ ▸ given)
    obtain ⟨l', _, rfl⟩ := ofToml_table isTable plain made'
    rfl

/-- What stands at a setting's path in the tree, next to what stands there in the file. -/
theorem at?_ofDocument {l : List (String × Toml.Value)} (shaped : ShapedFile l) {t : Tree}
    (h : ofDocument src l = some t) (x : Setting) :
    ((Toml.Value.table l).at? x.path = none ∧ t.at? x.path = none) ∨
      ∃ v u, (Toml.Value.table l).at? x.path = some v ∧ t.at? x.path = some u ∧
        ofToml src v = some u := by
  obtain ⟨l', made, rfl⟩ := Option.map_eq_some_iff.1 h
  rw [Setting.path, at?_cons _ x.home [x.key], Toml.Value.at?_cons _ x.home [x.key], at?_singleton,
    Toml.Value.at?_singleton]
  rcases findKey?_ofTomlEntries made x.home with ⟨none, none'⟩ | ⟨v, t, given, found, made'⟩
  · left
    rw [entries_table, Toml.Value.entries_table, none, none']
    exact ⟨rfl, rfl⟩
  · obtain ⟨isTable, plain⟩ := shaped.sections x v (Toml.Value.at?_singleton _ _ ▸ given)
    obtain ⟨l'', inner, rfl⟩ := ofToml_table isTable plain made'
    simp only [entries_table, Toml.Value.entries_table, given, found, Option.bind_some, at?_singleton,
      Toml.Value.at?_singleton]
    exact findKey?_ofTomlEntries inner x.key

/-- The table that a load starts from: a file's, or the empty one where no file is named. -/
def GivesTable (files : Files) (path : Option String) (l : List (String × Toml.Value)) : Prop :=
  match path with
  | none => l = []
  | some p => files.isFile p = true ∧ ∃ text, files.readText p = .ok text ∧ Toml.parse text = some l

/-- Wherever it is read from, a text gives its table. -/
theorem givesTable_text {text : String} {l : List (String × Toml.Value)}
    (parsed : Toml.parse text = some l) {path : String} (device : Files.isEmptyDevice path = false) :
    GivesTable (fun _ => .ok text.toUTF8) (some path) l := by
  refine ⟨by rw [Files.isFile, device]; rfl, text, ?_, parsed⟩
  have valid : String.fromUTF8? text.toUTF8 = some text := dif_pos text.isValidUTF8
  simp only [Files.readText, bind, Except.bind, valid]

def sourceOf : Option String → Source
  | none => .environment
  | some path => .file path

theorem GivesTable.ordered {files : Files} {path : Option String} {l : List (String × Toml.Value)}
    (h : GivesTable files path l) : (Toml.Value.table l).Ordered := by
  cases path with
  | none =>
    obtain rfl : l = [] := h
    exact .table .nil (by simp)
  | some p =>
    obtain ⟨_, text, _, parsed⟩ := h
    exact Toml.ordered_parse parsed

theorem GivesTable.ordered_ofDocument {files : Files} {path : Option String}
    {l : List (String × Toml.Value)} (h : GivesTable files path l) {t : Tree}
    (document : ofDocument src l = some t) : t.Ordered := by
  obtain ⟨l', made, rfl⟩ := Option.map_eq_some_iff.1 document
  cases h.ordered with
  | table ascending inner =>
    exact ordered_table_ofTomlEntries made ascending fun e mem => ordered_ofToml (inner e mem)

theorem load_of_made {files : Files} {path : Option String} {l : List (String × Toml.Value)}
    (h : GivesTable files path l) (e : Environment) {t : Tree}
    (made : ofDocument (sourceOf path) l = some t) :
    load files path e = (Decoder.settings.decode (t.overlay (ofEnvironment e))).mapError .invalid := by
  cases path with
  | none =>
    obtain rfl : l = [] := h
    cases made
    rfl
  | some p =>
    obtain ⟨isFile, text, read, parsed⟩ := h
    have made' : ofDocument (.file p) l = some t := made
    simp [load, ofFile, isFile, read, parsed, made', Except.toOption, bind, Except.bind]

/-- A table that makes no tree is no good with any environment. It is a file's, as the empty table makes
one. -/
theorem load_of_unmade {files : Files} {path : Option String} {l : List (String × Toml.Value)}
    (h : GivesTable files path l) (unmade : ofDocument (sourceOf path) l = none) (e : Environment) :
    load files path e = .error (.notToml (path.getD "")) := by
  cases path with
  | none =>
    obtain rfl : l = [] := h
    cases unmade
  | some p =>
    obtain ⟨isFile, text, read, parsed⟩ := h
    have unmade' : ofDocument (.file p) l = none := unmade
    simp [load, ofFile, isFile, read, parsed, unmade', Except.toOption, bind, Except.bind]

theorem exists_of_load {files : Files} {path : Option String} {l : List (String × Toml.Value)}
    (h : GivesTable files path l) {e : Environment} {s : Settings} (loaded : load files path e = .ok s) :
    ∃ t, ofDocument (sourceOf path) l = some t := by
  cases made : ofDocument (sourceOf path) l with
  | none =>
    cases loaded.symm.trans (load_of_unmade h made e)
  | some t => exact ⟨t, rfl⟩

end
end Settings
end Clearance
