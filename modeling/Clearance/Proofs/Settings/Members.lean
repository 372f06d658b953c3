import Clearance.Proofs.Json.Parts
import Clearance.Proofs.Settings.Assembly

/-!
Settings as members of JSON objects. Each section is an object of its own, and what an object says is
laid over the defaults setting by setting, also where a section gives a part of its settings only.
-/
namespace Clearance.Settings
open Json

namespace Setting

/-- The JSON values that stand for a value of the setting. -/
def Form : (x : Setting) → x.Value → Datum → Prop
  | logLevel => fun v y => y = .ofText v
  | logFormat => fun v y => ∃ name, LogFormat.names.lookup name = some v ∧
      (y = .ofText name ∨ y = .ofMembers [(name, .null)])
  | enabled => fun v y => y = .boolean v
  | grantsFile => fun v y => y = .ofOption .ofText v
  | taggingAccounts | skippedTypes => fun v y => y = .ofList .ofText v

def reader : (x : Setting) → Reader x.Value
  | logLevel => text "a string"
  | logFormat => LogFormat.reader
  | enabled => boolean
  | grantsFile => nullable (text "path string")
  | taggingAccounts | skippedTypes => elements (text "a string")

theorem strict_reader (x : Setting) : Strict x.reader := by
  cases x with
  | logLevel => exact strict_text _
  | logFormat => exact strict_variant _
  | enabled => exact strict_boolean
  | grantsFile => exact strict_nullable (strict_text _)
  | taggingAccounts => exact strict_elements (strict_text _)
  | skippedTypes => exact strict_elements (strict_text _)

theorem reads_form (x : Setting) {v : x.Value} {y : Datum} (h : x.Form v y) : Reads x.reader y v := by
  cases x with
  | logLevel =>
    obtain rfl := h
    exact reads_text _ _
  | logFormat =>
    obtain ⟨name, known, rfl | rfl⟩ := h
    · exact reads_variant known
    · exact reads_variantObject known
  | enabled =>
    obtain rfl := h
    exact reads_boolean _
  | grantsFile =>
    obtain rfl := h
    exact reads_ofOption (reads_text _) (fun _ h => nomatch h) _
  | taggingAccounts =>
    obtain rfl := h
    exact reads_ofList (reads_text _) _
  | skippedTypes =>
    obtain rfl := h
    exact reads_ofList (reads_text _) _

def part (x : Setting) {σ : Type} (get : σ → x.Value) (set : x.Value → σ → σ)
    (get_set : ∀ a v, get (set a v) = a) : Record.Part σ where
  Value := x.Value
  name := x.key
  item := x.reader
  form := x.Form
  strict := x.strict_reader
  reads := x.reads_form
  get := get
  set := set
  get_set := get_set

/-- The setting is what is given for it, and its default where nothing is. -/
def Overlaid (x : Setting) (given : Datum → Prop) (s : Settings) : Prop :=
  (∀ y, given y → x.Form (x.get s) y) ∧ ((∀ y, ¬ given y) → x.get s = x.get {})

/-- What the members of the setting's section give for it. -/
def Given (x : Setting) (l : List (String × Datum)) (y : Datum) : Prop :=
  ∃ m, (x.home, .ofMembers m) ∈ l ∧ (x.key, y) ∈ m

end Setting

/-- The setting's section is given more than once, or the setting is in it. -/
def Setting.Repeated (x : Setting) (l : List (String × Datum)) : Prop :=
  1 < (valuesOf x.home l).length ∨ ∃ m, (x.home, .ofMembers m) ∈ l ∧ 1 < (valuesOf x.key m).length

/-- Sections that are objects, and in them values that are of their settings' forms. -/
structure Typed (l : List (String × Datum)) : Prop where
  sections : ∀ (x : Setting) (y : Datum), (x.home, y) ∈ l → ∃ m, y = .ofMembers m
  values : ∀ (x : Setting) (y : Datum), x.Given l y → ∃ v, x.Form v y

section OneSection
variable {home : String} {m : List (String × Datum)}

theorem Setting.given_singleton {x : Setting} {y : Datum} :
    x.Given [(home, .ofMembers m)] y ↔ x.home = home ∧ (x.key, y) ∈ m := by
  constructor
  · rintro ⟨m', mem, given⟩
    obtain ⟨own, same⟩ := Prod.mk.inj (List.mem_singleton.1 mem)
    exact ⟨own, Datum.ofMembers_injective same ▸ given⟩
  · rintro ⟨rfl, given⟩
    exact ⟨m, List.mem_singleton_self _, given⟩

theorem typed_singleton (forms : ∀ x : Setting, x.home = home → ∀ y, (x.key, y) ∈ m → ∃ v, x.Form v y) :
    Typed [(home, .ofMembers m)] where
  sections _ _ mem := ⟨m, (Prod.mk.inj (List.mem_singleton.1 mem)).2⟩
  values x y given := by
    obtain ⟨own, mem⟩ := Setting.given_singleton.1 given
    exact forms x own y mem

theorem Setting.not_repeated_singleton {x : Setting} (once : (valuesOf x.key m).length ≤ 1) :
    ¬ x.Repeated [(home, .ofMembers m)] := by
  rintro (twice | ⟨m', mem, twice⟩)
  · have few : (valuesOf x.home [(home, .ofMembers m)]).length ≤ 1 := by
      rw [valuesOf, List.length_map]
      exact List.length_filter_le _ _
    omega
  · obtain rfl := Datum.ofMembers_injective (Prod.mk.inj (List.mem_singleton.1 mem)).2
    omega

end OneSection

/-- A section with its settings as the parts of its record. -/
structure Home (σ : Type) where
  setting : Setting
  record : Record σ
  parts : List (Record.Part σ)
  parted : record.Parted parts
  get : Settings → σ
  set : σ → Settings → Settings
  get_set : ∀ v s, get (set v s) = v
  start : record.start = get {}
  setting_of_part : ∀ p ∈ parts, ∃ x : Setting, x.home = setting.home ∧ ∃ g s h, p = x.part g s h
  part_of_setting : ∀ x : Setting, x.home = setting.home →
    ∃ g s h, x.part g s h ∈ parts ∧ ∀ s, g (get s) = x.get s

attribute [ext] Telemetry Authorization Policy Settings

theorem ext_get {s s' : Settings} (same : ∀ x : Setting, x.get s = x.get s') : s = s' :=
  Settings.ext (Telemetry.ext (same .logLevel) (same .logFormat))
    (Authorization.ext (same .enabled) (same .grantsFile))
    (Policy.ext (same .taggingAccounts) (same .skippedTypes))

namespace Home

def name {σ : Type} (h : Home σ) : String := h.setting.home

def telemetry : Home Telemetry where
  setting := .logLevel
  record := Telemetry.record
  parts := [
    Setting.logLevel.part (·.logLevel) (fun l t => { t with logLevel := l }) fun _ _ => rfl,
    Setting.logFormat.part (·.logFormat) (fun f t => { t with logFormat := f }) fun _ _ => rfl]
  parted := {
    fields := rfl
    distinct := by decide
    apart := List.pairwise_pair.2 ⟨fun _ _ => rfl, fun _ _ => rfl⟩
    ext := fun _ _ same => Telemetry.ext (same _ (.head _)) (same _ (.tail _ (.head _))) }
  get s := s.telemetry
  set t s := { s with telemetry := t }
  get_set _ _ := rfl
  start := rfl
  setting_of_part := by
    simp only [List.forall_mem_cons]
    exact ⟨⟨.logLevel, rfl, _, _, _, rfl⟩, ⟨.logFormat, rfl, _, _, _, rfl⟩, List.forall_mem_nil _⟩
  part_of_setting x home := by
    cases x with
    | logLevel => exact ⟨_, _, _, .head _, fun _ => rfl⟩
    | logFormat => exact ⟨_, _, _, .tail _ (.head _), fun _ => rfl⟩
    | _ => exact absurd home (by decide)

def authorization : Home Authorization where
  setting := .enabled
  record := Authorization.record
  parts := [
    Setting.enabled.part (·.enabled) (fun b a => { a with enabled := b }) fun _ _ => rfl,
    Setting.grantsFile.part (·.grantsFile) (fun p a => { a with grantsFile := p }) fun _ _ => rfl]
  parted := {
    fields := rfl
    distinct := by decide
    apart := List.pairwise_pair.2 ⟨fun _ _ => rfl, fun _ _ => rfl⟩
    ext := fun _ _ same => Authorization.ext (same _ (.head _)) (same _ (.tail _ (.head _))) }
  get s := s.authorization
  set a s := { s with authorization := a }
  get_set _ _ := rfl
  start := rfl
  setting_of_part := by
    simp only [List.forall_mem_cons]
    exact ⟨⟨.enabled, rfl, _, _, _, rfl⟩, ⟨.grantsFile, rfl, _, _, _, rfl⟩, List.forall_mem_nil _⟩
  part_of_setting x home := by
    cases x with
    | enabled => exact ⟨_, _, _, .head _, fun _ => rfl⟩
    | grantsFile => exact ⟨_, _, _, .tail _ (.head _), fun _ => rfl⟩
    | _ => exact absurd home (by decide)

def security : Home Policy where
  setting := .skippedTypes
  record := Policy.record
  parts := [
    Setting.taggingAccounts.part (·.taggingAccounts) (fun l p => { p with taggingAccounts := l })
      fun _ _ => rfl,
    Setting.skippedTypes.part (·.skippedTypes) (fun l p => { p with skippedTypes := l }) fun _ _ => rfl]
  parted := {
    fields := rfl
    distinct := by decide
    apart := List.pairwise_pair.2 ⟨fun _ _ => rfl, fun _ _ => rfl⟩
    ext := fun _ _ same => Policy.ext (same _ (.head _)) (same _ (.tail _ (.head _))) }
  get s := s.security
  set p s := { s with security := p }
  get_set _ _ := rfl
  start := rfl
  setting_of_part := by
    simp only [List.forall_mem_cons]
    exact ⟨⟨.taggingAccounts, rfl, _, _, _, rfl⟩, ⟨.skippedTypes, rfl, _, _, _, rfl⟩,
      List.forall_mem_nil _⟩
  part_of_setting x home := by
    cases x with
    | taggingAccounts => exact ⟨_, _, _, .head _, fun _ => rfl⟩
    | skippedTypes => exact ⟨_, _, _, .tail _ (.head _), fun _ => rfl⟩
    | _ => exact absurd home (by decide)

variable {σ : Type} {h : Home σ} {m l : List (String × Datum)}

/-! ### Members of a section -/

theorem typed_iff : (∀ p ∈ h.parts, p.Typed m) ↔
    ∀ x : Setting, x.home = h.name → ∀ y, (x.key, y) ∈ m → ∃ v, x.Form v y := by
  constructor
  · intro typed x home
    obtain ⟨g, s, eq, mem, -⟩ := h.part_of_setting x home
    exact typed _ mem
  · intro typed p mem
    obtain ⟨x, home, g, s, eq, rfl⟩ := h.setting_of_part p mem
    exact typed x home

theorem once_iff : (∀ p ∈ h.parts, p.Once m) ↔
    ∀ x : Setting, x.home = h.name → (valuesOf x.key m).length ≤ 1 := by
  constructor
  · intro once x home
    obtain ⟨g, s, eq, mem, -⟩ := h.part_of_setting x home
    exact once _ mem
  · intro once p mem
    obtain ⟨x, home, g, s, eq, rfl⟩ := h.setting_of_part p mem
    exact once x home

/-- What the parts of a section say of its settings. -/
theorem setting_overlaid {v start : σ} (overlaid : ∀ p ∈ h.parts, p.Overlaid m start v) (x : Setting)
    (home : x.home = h.name) {s s₀ : Settings} (now : h.get s = v) (before : h.get s₀ = start) :
    AtMostOne m x.key (x.get s = x.get s₀) (x.Form (x.get s)) := by
  obtain ⟨g, set, eq, mem, same⟩ := h.part_of_setting x home
  have part := overlaid _ mem
  rw [← same s, ← same s₀, now, before]
  exact part

theorem overlaid_section {v : σ} (overlaid : ∀ p ∈ h.parts, p.Overlaid m h.record.start v) (x : Setting)
    (home : x.home = h.name) {s : Settings} (now : h.get s = v) :
    x.Overlaid (fun y => (x.key, y) ∈ m) s := by
  have setting := setting_overlaid overlaid x home now h.start.symm
  constructor
  · intro y given
    exact setting.of_mem given
  · intro none
    apply setting.of_not_mem
    intro named
    obtain ⟨⟨_, y⟩, given, rfl⟩ := List.mem_map.1 named
    exact none y given

/-! ### Sections as members -/

def part (h : Home σ) : Record.Part Settings where
  Value := σ
  name := h.name
  item := h.record.reader
  form v y := ∃ m, y = .ofMembers m ∧ ∀ p ∈ h.parts, p.Overlaid m h.record.start v
  strict := Record.strict_reader h.parted.strict
  reads := by
    rintro v _ ⟨m, rfl, overlaid⟩
    exact h.parted.reads overlaid
  get := h.get
  set := h.set
  get_set := h.get_set

/-- The section is given once at most, and each of its settings in it. -/
def Unrepeated (h : Home σ) (l : List (String × Datum)) : Prop :=
  h.part.Once l ∧ ∀ m, (h.name, .ofMembers m) ∈ l → ∀ p ∈ h.parts, p.Once m

theorem unrepeated_iff : h.Unrepeated l ↔ ∀ x : Setting, x.home = h.name → ¬ x.Repeated l := by
  constructor
  · rintro ⟨once, inner⟩ x home (twice | ⟨m, mem, twice⟩)
    · have once : (valuesOf h.name l).length ≤ 1 := once
      rw [home] at twice
      omega
    · have once := once_iff.1 (inner m (home ▸ mem)) x home
      omega
  · intro none
    constructor
    · exact Nat.not_lt.1 fun twice => none h.setting rfl (.inl twice)
    · intro m mem
      apply once_iff.2
      intro x home
      exact Nat.not_lt.1 fun twice => none x home (.inr ⟨m, home ▸ mem, twice⟩)

theorem typed_section (typed : Typed l) {y : Datum} (mem : (h.name, y) ∈ l) :
    ∃ m, y = .ofMembers m ∧ ∀ p ∈ h.parts, p.Typed m := by
  obtain ⟨m, rfl⟩ := typed.sections h.setting y mem
  refine ⟨m, rfl, typed_iff.2 fun x home z given => ?_⟩
  exact typed.values x z ⟨m, home ▸ mem, given⟩

theorem typed_part (typed : Typed l) (once : h.Unrepeated l) : h.part.Typed l := by
  intro y mem
  obtain ⟨m, rfl, inner⟩ := typed_section typed mem
  obtain ⟨v, overlaid⟩ := h.parted.exists_overlaid (once.2 m mem) inner h.record.start
  exact ⟨v, m, rfl, overlaid⟩

theorem unrepeated_of_takes {parts : List (Record.Part Settings)} (parted : Settings.record.Parted parts)
    (mem : h.part ∈ parts) (taken : Takes Settings.record.reader (.ofMembers l)) : h.Unrepeated l := by
  obtain ⟨once, takes⟩ := parted.taken taken _ mem
  refine ⟨once, fun m given p known => ?_⟩
  exact (h.parted.taken (takes _ given) p known).1

theorem overlaid_settings {s : Settings} (overlaid : h.part.Overlaid l {} s) (x : Setting)
    (home : x.home = h.name) : x.Overlaid (x.Given l) s := by
  constructor
  · rintro y ⟨m, mem, given⟩
    obtain ⟨m', same, inner⟩ := overlaid.of_mem (home ▸ mem)
    obtain rfl := Datum.ofMembers_injective same
    exact (overlaid_section inner x home rfl).1 y given
  · intro none
    cases overlaid with
    | absent _ unset =>
      obtain ⟨g, set, eq, -, same⟩ := h.part_of_setting x home
      have unset : h.get s = h.get {} := unset
      rw [← same, ← same, unset]
    | given one form =>
      obtain ⟨m, rfl, inner⟩ := form
      have mem : (x.home, .ofMembers m) ∈ l :=
        mem_valuesOf.1 (home ▸ one ▸ List.mem_singleton_self _)
      exact (overlaid_section inner x home rfl).2 fun y given => none y ⟨m, mem, given⟩

end Home

def parts : List (Record.Part Settings) :=
  [Home.telemetry.part, Home.authorization.part, Home.security.part]

theorem parted : Settings.record.Parted parts where
  fields := rfl
  distinct := by decide
  apart := by
    have apart {σ τ : Type} (h : Home σ) (h' : Home τ) (left : ∀ v s, h.get (h'.set v s) = h.get s)
        (right : ∀ v s, h'.get (h.set v s) = h'.get s) : h.part.Apart h'.part := ⟨left, right⟩
    simp only [parts, List.pairwise_cons, List.forall_mem_cons]
    exact ⟨⟨apart _ _ (fun _ _ => rfl) fun _ _ => rfl, apart _ _ (fun _ _ => rfl) fun _ _ => rfl,
      List.forall_mem_nil _⟩, ⟨apart _ _ (fun _ _ => rfl) fun _ _ => rfl, List.forall_mem_nil _⟩,
      List.forall_mem_nil _, .nil⟩
  ext _ _ same := Settings.ext (same _ (.head _)) (same _ (.tail _ (.head _)))
    (same _ (.tail _ (.tail _ (.head _))))

theorem Setting.home_cases (x : Setting) : x.home = Home.telemetry.name ∨
    x.home = Home.authorization.name ∨ x.home = Home.security.name := by cases x <;> decide

variable {l : List (String × Datum)} {t : String}

theorem exists_settings (typed : Typed l) (once : ∀ x : Setting, ¬ x.Repeated l) :
    ∃ s, (∀ p ∈ parts, p.Overlaid l Settings.record.start s) ∧ ∀ x : Setting, x.Overlaid (x.Given l) s := by
  have unrepeated {σ : Type} (h : Home σ) : h.Unrepeated l := Home.unrepeated_iff.2 fun x _ => once x
  have each : ∀ p ∈ parts, p.Once l ∧ p.Typed l := by
    simp only [parts, List.forall_mem_cons]
    exact ⟨⟨(unrepeated _).1, Home.typed_part typed (unrepeated _)⟩,
      ⟨(unrepeated _).1, Home.typed_part typed (unrepeated _)⟩,
      ⟨(unrepeated _).1, Home.typed_part typed (unrepeated _)⟩, List.forall_mem_nil _⟩
  obtain ⟨s, overlaid⟩ := parted.exists_overlaid (fun p mem => (each p mem).1)
    (fun p mem => (each p mem).2) Settings.record.start
  refine ⟨s, overlaid, fun x => ?_⟩
  rcases x.home_cases with home | home | home
  · exact Home.overlaid_settings (overlaid _ (.head _)) x home
  · exact Home.overlaid_settings (overlaid _ (.tail _ (.head _))) x home
  · exact Home.overlaid_settings (overlaid _ (.tail _ (.tail _ (.head _)))) x home

theorem not_repeated_of_takes (taken : Takes Settings.record.reader (.ofMembers l)) (x : Setting) :
    ¬ x.Repeated l := by
  have unrepeated {σ : Type} {h : Home σ} (mem : h.part ∈ parts) :=
    Home.unrepeated_iff.1 (Home.unrepeated_of_takes parted mem taken)
  rcases x.home_cases with home | home | home
  · exact unrepeated (.head _) x home
  · exact unrepeated (.tail _ (.head _)) x home
  · exact unrepeated (.tail _ (.tail _ (.head _))) x home

/-- Settings are read from an object as the defaults with what the object gives laid over them. -/
theorem parse_overlaid (written : WrittenAs t (.ofMembers l)) (typed : Typed l)
    (once : ∀ x : Setting, ¬ x.Repeated l) :
    ∃ s, Json.parse record.reader t = .ok s ∧ ∀ x : Setting, x.Overlaid (x.Given l) s := by
  obtain ⟨s, overlaid, settings⟩ := exists_settings typed once
  exact ⟨s, parse_written (parted.reads overlaid) written, settings⟩

theorem parse_repeated (written : WrittenAs t (.ofMembers l)) {x : Setting} (repeated : x.Repeated l) :
    ∃ e, Json.parse record.reader t = .error e := by
  cases read : Json.parse record.reader t with
  | error e => exact ⟨e, rfl⟩
  | ok s => exact absurd repeated (not_repeated_of_takes (takes_of_parse written read) x)

/-- A policy is read in the same way from an object that has the settings of its section. -/
theorem parse_policy_overlaid (written : WrittenAs t (.ofMembers l))
    (typed : ∀ x : Setting, x.home = "security" → ∀ y, (x.key, y) ∈ l → ∃ v, x.Form v y)
    (once : ∀ x : Setting, x.home = "security" → (valuesOf x.key l).length ≤ 1) :
    ∃ p, Json.parse Policy.record.reader t = .ok p ∧ ∀ x : Setting, x.home = "security" →
      x.Overlaid (fun y => (x.key, y) ∈ l) { security := p } := by
  have parted := Home.security.parted
  obtain ⟨p, overlaid⟩ := parted.exists_overlaid (Home.once_iff.2 once) (Home.typed_iff.2 typed) {}
  exact ⟨p, parse_written (parted.reads overlaid) written, fun x home =>
    Home.overlaid_section overlaid x home rfl⟩

theorem parse_policy_repeated (written : WrittenAs t (.ofMembers l)) {x : Setting}
    (home : x.home = "security") (twice : 1 < (valuesOf x.key l).length) :
    ∃ e, Json.parse Policy.record.reader t = .error e := by
  cases read : Json.parse Policy.record.reader t with
  | error e => exact ⟨e, rfl⟩
  | ok p =>
    have taken := Home.security.parted.taken (takes_of_parse written read)
    have once := Home.once_iff.1 (fun p mem => (taken p mem).1) x home
    omega

end Clearance.Settings
