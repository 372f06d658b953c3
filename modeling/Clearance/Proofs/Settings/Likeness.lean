import Clearance.Proofs.Except
import Clearance.Proofs.Settings.File

/-!
Settings that are given alike, the log level apart. Where all other settings are given the same and each
log level can be read, the settings can be loaded from both or from neither, and differ in the log level
alone.
-/
namespace Clearance.Settings
open Settings.Tree

/-- All that is given for the settings, the environment laid over the file. -/
def givenBy (files : Files) (path : Option String) (e : Environment) : Except LoadError Tree :=
  match path with
  | some path => (ofFile files path).map (·.overlay (ofEnvironment e))
  | none => .ok (overlay (.table .environment []) (ofEnvironment e))

theorem load_eq_givenBy (files : Files) (path : Option String) (e : Environment) :
    load files path e =
      (givenBy files path e).bind fun t => (Decoder.settings.decode t).mapError .invalid := by
  cases path with
  | none => rfl
  | some path =>
    simp only [load, givenBy, bind]
    cases ofFile files path <;> rfl

theorem splitPoints_ne_nil (s : List Char) : splitPoints s ≠ [] := by
  induction s with
  | nil => exact List.cons_ne_nil _ _
  | cons c s ih =>
    unfold splitPoints
    split
    · split <;> exact List.cons_ne_nil _ _
    · exact List.cons_ne_nil _ _

theorem ne_nil_of_pathOf? {name : String} {path : List String} (h : pathOf? name = some path) :
    path ≠ [] := by
  simp only [pathOf?, Option.ite_none_right_eq_some, Option.ite_none_left_eq_some] at h
  obtain ⟨-, -, parts⟩ := h
  obtain rfl := Option.some.inj parts
  exact fun none => splitPoints_ne_nil _ (List.map_eq_nil_iff.1 none)

theorem isTable_ofEnvironment (e : Environment) : (ofEnvironment e).isTable = true := by
  have all : ∀ t ∈ e.entries.filterMap contribution, t.isTable = true := by
    intro t mem
    obtain ⟨v, -, given⟩ := List.mem_filterMap.1 mem
    obtain ⟨path, named, rfl⟩ := Option.map_eq_some_iff.1 given
    match path, ne_nil_of_pathOf? named with
    | k :: path, _ => rfl
  have stacked {trees : List Tree} (all : ∀ t ∈ trees, t.isTable = true) {below : Tree}
      (isTable : below.isTable = true) : (stack trees below).isTable = true := by
    induction trees generalizing below with
    | nil => exact isTable
    | cons t trees ih =>
      obtain ⟨head, rest⟩ := List.forall_mem_cons.1 all
      exact ih rest ((isTable_overlay below t).trans head)
  rw [ofEnvironment_eq]
  exact stacked all rfl

theorem ordered_ofFile {files : Files} {path : String} {t : Tree} (h : ofFile files path = .ok t) :
    t.Ordered := by
  unfold ofFile at h
  cases isFile : files.isFile path with
  | false => simp [isFile, bind, Except.bind] at h
  | true =>
    simp only [isFile, Bool.not_true, Bool.false_eq_true, if_false, bind, Except.bind] at h
    split at h
    · rename_i made
      cases h
      obtain ⟨l, parsed, document⟩ := Option.bind_eq_some_iff.1 made
      obtain ⟨text, read, parsed⟩ := Option.bind_eq_some_iff.1 parsed
      have table : GivesTable files (some path) l := ⟨isFile, text, eq_ok_of_toOption read, parsed⟩
      exact table.ordered_ofDocument document
    · cases h

theorem givenBy_ok {files : Files} {path : Option String} {e : Environment} {t : Tree}
    (h : givenBy files path e = .ok t) : t.Ordered ∧ t.isTable = true := by
  have laid {below : Tree} (ordered : below.Ordered) :
      (below.overlay (ofEnvironment e)).Ordered ∧ (below.overlay (ofEnvironment e)).isTable = true :=
    ⟨(ordered_ofEnvironment e).overlay ordered, (isTable_overlay below _).trans (isTable_ofEnvironment e)⟩
  unfold givenBy at h
  cases path with
  | none =>
    cases h
    exact laid (.table .nil nofun)
  | some path =>
    simp only at h
    cases source : ofFile files path with
    | error err =>
      rw [source] at h
      cases h
    | ok below =>
      rw [source] at h
      cases h
      exact laid (ordered_ofFile source)

/-- A log level that can be read. -/
def IsLevel (t : Tree) : Prop := ∃ l, Decoder.text "a string" t = .ok l

/-- A section is a table, or a list that has its entries by their places. -/
def Tree.isSection : Tree → Bool
  | leaf .. => false
  | list .. | table .. => true

def levelIn : Option Tree → Option Tree
  | some (.list _ l) => l[0]?
  | u => u.bind (·.at? ["log_level"])

def formatIn : Option Tree → Option Tree
  | some (.list _ l) => l[1]?
  | u => u.bind (·.at? ["log_format"])

/-- Two sections that give the same format, and each a log level that can be read or none, unless they
do not differ at all. A section that is a single value is no good, and a log level that is laid over it
would hide that. -/
inductive SectionsAlike : Option Tree → Option Tree → Prop where
  | same (u : Option Tree) : SectionsAlike u u
  | sections {u u' : Option Tree} : (∀ t ∈ u, t.isSection = true) → (∀ t ∈ u', t.isSection = true) →
    formatIn u = formatIn u' → (∀ t ∈ levelIn u, IsLevel t) → (∀ t ∈ levelIn u', IsLevel t) →
    SectionsAlike u u'

theorem SectionsAlike.trans {u u' u'' : Option Tree} (h : SectionsAlike u u')
    (h' : SectionsAlike u' u'') : SectionsAlike u u'' := by
  cases h with
  | same => exact h'
  | sections isSection isSection' format level level' =>
    cases h' with
    | same => exact .sections isSection isSection' format level level'
    | sections _ isSection'' format' _ level'' =>
      exact .sections isSection isSection'' (format.trans format') level level''

/-- Everything but the log level is given the same. -/
structure GivenAlike (t t' : Tree) : Prop where
  others : ∀ k, k ≠ "telemetry" → t.at? [k] = t'.at? [k]
  telemetry : SectionsAlike (t.at? ["telemetry"]) (t'.at? ["telemetry"])

/-- Settings that differ in the log level at most. -/
structure SameButLogLevel (s s' : Settings) : Prop where
  authorization : s.authorization = s'.authorization
  security : s.security = s'.security
  logFormat : s.telemetry.logFormat = s'.telemetry.logFormat

/-- Both fail, or both have a value, and the values are related. -/
inductive Both {ε α : Type} (related : α → α → Prop) : Except ε α → Except ε α → Prop where
  | error (e e' : ε) : Both related (.error e) (.error e')
  | ok {a a' : α} : related a a' → Both related (.ok a) (.ok a')

namespace Both
variable {ε ε' α β : Type} {related : α → α → Prop} {related' : β → β → Prop} {r r' : Except ε α}

theorem refl (h : ∀ a, related a a) (r : Except ε α) : Both related r r := by
  cases r with
  | error e => exact .error e e
  | ok a => exact .ok (h a)

theorem symm {related' : α → α → Prop} (h : Both related r r')
    (turned : ∀ a a', related a a' → related' a' a) : Both related' r' r := by
  cases h with
  | error e e' => exact .error e' e
  | ok h => exact .ok (turned _ _ h)

theorem trans {r'' : Except ε α} (h : Both related r r') (h' : Both related r' r'')
    (through : ∀ a b c, related a b → related b c → related a c) : Both related r r'' := by
  cases h with
  | error e e' =>
    cases h' with
    | error _ e'' => exact .error e e''
  | ok h =>
    cases h' with
    | ok h' => exact .ok (through _ _ _ h h')

theorem mapError (h : Both related r r') (f f' : ε → ε') : Both related (r.mapError f) (r'.mapError f') := by
  cases h with
  | error e e' => exact .error (f e) (f' e')
  | ok h => exact .ok h

theorem bind (h : Both related r r') {f f' : α → Except ε β}
    (next : ∀ a a', related a a' → Both related' (f a) (f' a')) : Both related' (r.bind f) (r'.bind f') := by
  cases h with
  | error e e' => exact .error e e'
  | ok h => exact next _ _ h

end Both

namespace Decoder
variable {σ : Type}

/-- A section that is given or left out. -/
def part (s : Section σ) (k : String) (given : Option Tree) : Except Problem σ :=
  match given with
  | none => .ok s.start
  | some t => within k (s.decode t)

theorem step_entry (s : Section σ) (k : String) (set : σ → Settings → Settings)
    (look : String → Option Tree) {v : Settings} (unset : set s.start v = v) :
    step look (entry k s.decode set) v = (part s k (look k)).map (set · v) := by
  simp only [step, entry, part]
  cases look k with
  | none => exact congrArg Except.ok unset.symm
  | some t =>
    change (within k ((s.decode t).map set)).map (· v) = (within k (s.decode t)).map (set · v)
    cases s.decode t <;> rfl

/-- The settings are put together from their sections. -/
theorem decode_parts {t : Tree} (ordered : t.Ordered) (isTable : t.isTable = true) :
    settings.decode t =
      (part authorization "authorization" (t.at? ["authorization"])).bind fun a =>
        (part security "security" (t.at? ["security"])).bind fun p =>
          (part telemetry "telemetry" (t.at? ["telemetry"])).bind fun m => .ok ⟨m, a, p⟩ := by
  have step {σ : Type} (s : Section σ) (k : String) (set : σ → Settings → Settings) {v : Settings} :=
    step_entry s k set (fun k => t.at? [k]) (v := v)
  rw [decode_eq_pick sorted_settings ordered isTable]
  refine (pick_cons (step authorization _ _ rfl) _).trans (congrArg (Except.bind _) (funext fun a => ?_))
  refine (pick_cons (step security _ _ rfl) _).trans (congrArg (Except.bind _) (funext fun p => ?_))
  exact pick_cons (step telemetry _ _ rfl) []

def SameFormat (m m' : Telemetry) : Prop := m.logFormat = m'.logFormat

/-- What a section makes of the format alone. -/
def formatted (given : Option Tree) : Except Problem Telemetry :=
  (Setting.logFormat.decode given).map fun f => { logFormat := f }

theorem decode_isLevel {given : Option Tree} (h : ∀ t ∈ given, IsLevel t) :
    ∃ l, Setting.logLevel.decode given = .ok l := by
  cases given with
  | none => exact ⟨_, rfl⟩
  | some t =>
    obtain ⟨l, read⟩ := h t rfl
    exact ⟨l, congrArg (within "log_level") read⟩

theorem assembleTelemetry_format {given : Setting → Option Tree}
    (level : ∀ t ∈ given .logLevel, IsLevel t) :
    Both SameFormat (assembleTelemetry given) (formatted (given .logFormat)) := by
  obtain ⟨l, read⟩ := decode_isLevel level
  unfold assembleTelemetry formatted
  rw [read]
  cases Setting.logFormat.decode (given .logFormat) with
  | error p => exact .error p p
  | ok f => exact .ok rfl

theorem byPlace_format (m : Telemetry) (json : m.logFormat = .json) (rest : List Tree) :
    Both SameFormat (Section.byPlace 1 (telemetry.entries.drop 1) m rest) (formatted rest.head?) := by
  cases rest with
  | nil => exact .ok json
  | cons t rest =>
    simp only [telemetry, List.drop_succ_cons, List.drop_zero, Section.byPlace, entry, formatted,
      Setting.decode, Setting.read, List.head?_cons]
    cases variant "LogFormat" LogFormat.names t with
    | error p => exact .error _ _
    | ok f => exact .ok rfl

theorem decode_list (s : Source) {l : List Tree} (level : ∀ t ∈ l[0]?, IsLevel t) :
    Both SameFormat (telemetry.decode (.list s l)) (formatted l[1]?) := by
  cases l with
  | nil => exact .ok rfl
  | cons t rest =>
    obtain ⟨l, read⟩ := level t rfl
    have placed : telemetry.decode (.list s (t :: rest)) =
        Section.byPlace 1 (telemetry.entries.drop 1) { logLevel := l } rest := by
      simp [Section.decode, Section.byPlace, telemetry, entry, read, within, Except.map, Except.mapError,
        bind, Except.bind]
    rw [placed, List.getElem?_cons_succ, ← List.head?_eq_getElem?]
    exact byPlace_format _ rfl rest

/-- A section with a log level that can be read comes to its format. -/
theorem part_format {u : Option Tree} (ordered : ∀ t ∈ u, t.Ordered)
    (isSection : ∀ t ∈ u, t.isSection = true) (level : ∀ t ∈ levelIn u, IsLevel t) :
    Both SameFormat (part telemetry "telemetry" u) (formatted (formatIn u)) := by
  have within (r r' : Except Problem Telemetry) (h : Both SameFormat r r') :
      Both SameFormat (within "telemetry" r) r' := by
    cases h with
    | error => exact .error _ _
    | ok h => exact .ok h
  cases u with
  | none => exact .ok rfl
  | some t =>
    refine within _ _ ?_
    cases t with
    | leaf => cases isSection _ rfl
    | list s l => exact decode_list s level
    | table s l =>
      rw [decode_telemetry (ordered _ rfl) rfl]
      exact assembleTelemetry_format level

theorem part_alike {u u' : Option Tree} (ordered : ∀ t ∈ u, t.Ordered) (ordered' : ∀ t ∈ u', t.Ordered)
    (alike : SectionsAlike u u') :
    Both SameFormat (part telemetry "telemetry" u) (part telemetry "telemetry" u') := by
  cases alike with
  | same => exact .refl (fun m => (rfl : SameFormat m m)) _
  | sections isSection isSection' format level level' =>
    have first := part_format ordered isSection level
    have second := part_format ordered' isSection' level'
    rw [← format] at second
    exact first.trans (second.symm fun _ _ => Eq.symm) fun _ _ _ => Eq.trans

/-- From what is given alike the settings can be made in both cases or in neither. -/
theorem decode_alike {t t' : Tree} (ordered : t.Ordered) (isTable : t.isTable = true)
    (ordered' : t'.Ordered) (isTable' : t'.isTable = true) (alike : GivenAlike t t') :
    Both SameButLogLevel (settings.decode t) (settings.decode t') := by
  rw [decode_parts ordered isTable, decode_parts ordered' isTable', alike.others "authorization" (by decide),
    alike.others "security" (by decide)]
  refine (Both.refl (fun _ => rfl) _).bind fun a a' authorization => ?_
  refine (Both.refl (fun _ => rfl) _).bind fun p p' security => ?_
  refine (part_alike (fun u found => ordered.at? found) (fun u found => ordered'.at? found)
    alike.telemetry).bind fun m m' logFormat => ?_
  exact .ok ⟨authorization, security, logFormat⟩

end Decoder

/-- All that is given for the settings is alike, or nothing can be had in both cases. -/
def SourcesAlike (files files' : Files) (path : Option String) (e e' : Environment) : Prop :=
  Both GivenAlike (givenBy files path e) (givenBy files' path e')

theorem SourcesAlike.trans {files files' files'' : Files} {path : Option String}
    {e e' e'' : Environment} (h : SourcesAlike files files' path e e')
    (h' : SourcesAlike files' files'' path e' e'') : SourcesAlike files files'' path e e'' :=
  Both.trans h h' fun _ _ _ first second =>
    ⟨fun k other => (first.others k other).trans (second.others k other),
      first.telemetry.trans second.telemetry⟩

theorem load_alike {files files' : Files} {path : Option String} {e e' : Environment}
    (alike : SourcesAlike files files' path e e') :
    Both SameButLogLevel (load files path e) (load files' path e') := by
  unfold SourcesAlike at alike
  rw [load_eq_givenBy, load_eq_givenBy]
  generalize given : givenBy files path e = r at alike ⊢
  generalize given' : givenBy files' path e' = r' at alike ⊢
  cases alike with
  | error err err' => exact .error _ _
  | ok alike =>
    obtain ⟨ordered, isTable⟩ := givenBy_ok given
    obtain ⟨ordered', isTable'⟩ := givenBy_ok given'
    exact (Decoder.decode_alike ordered isTable ordered' isTable' alike).mapError _ _

/-- A variable that is no setting changes nothing of what the environment gives. -/
theorem ofEnvironment_set {name : String} (other : pathOf? name = none) (e : Environment)
    (value : String) : ofEnvironment (e.set name value) = ofEnvironment e := by
  have unread (value : String) : contribution (name, value) = none := congrArg (Option.map _) other
  rw [ofEnvironment_eq, ofEnvironment_eq]
  congr 1
  unfold Environment.set
  split
  · rw [List.filterMap_map]
    refine List.filterMap_congr fun ⟨n, v⟩ _ => ?_
    by_cases here : n = name
    · subst here
      exact (congrArg contribution (if_pos rfl)).trans ((unread value).trans (unread v).symm)
    · exact congrArg contribution (if_neg here)
  · have last : [(name, value)].filterMap contribution = [] :=
      List.filterMap_eq_nil_iff.2 (List.forall_mem_singleton.2 (unread value))
    rw [List.filterMap_append, last, List.append_nil]

end Clearance.Settings
