import Clearance.Proofs.Settings.Decode

/-!
The six settings. A tree whose sections are tables is decoded setting by setting, from what stands at
each one's path; a setting that is not given has its default.
-/
namespace Clearance.Settings

inductive Setting where
  | logLevel
  | logFormat
  | enabled
  | grantsFile
  | taggingAccounts
  | skippedTypes
deriving DecidableEq, Repr

namespace Setting

def all : List Setting := [logLevel, logFormat, enabled, grantsFile, taggingAccounts, skippedTypes]

def home : Setting → String
  | logLevel | logFormat => "telemetry"
  | enabled | grantsFile => "authorization"
  | taggingAccounts | skippedTypes => "security"

def key : Setting → String
  | logLevel => "log_level"
  | logFormat => "log_format"
  | enabled => "enabled"
  | grantsFile => "grants_file"
  | taggingAccounts => "allow_unauthenticated_image_tagging_in_accounts"
  | skippedTypes => "skip_authorization_for"

def path (x : Setting) : List String := [x.home, x.key]

theorem eq_of_prefix {x : Setting} {p : List String} (sub : p <+: x.path) (ne : p ≠ x.path) :
    p = [] ∨ p = [x.home] := by
  rcases List.prefix_cons_iff.1 sub with rfl | ⟨p, rfl, inner⟩
  · exact .inl rfl
  rcases List.prefix_cons_iff.1 inner with rfl | ⟨p, rfl, innermost⟩
  · exact .inr rfl
  · obtain rfl := List.prefix_nil.1 innermost
    exact absurd rfl ne

theorem mem_all (x : Setting) : x ∈ all := by cases x <;> decide

instance {p : Setting → Prop} [DecidablePred p] : Decidable (∀ x, p x) :=
  decidable_of_iff (∀ x ∈ all, p x) ⟨fun h x => h x (mem_all x), fun h x _ => h x⟩

abbrev Value : Setting → Type
  | logLevel => String
  | logFormat => LogFormat
  | enabled => Bool
  | grantsFile => Option String
  | taggingAccounts | skippedTypes => List String

def get : (x : Setting) → Settings → x.Value
  | logLevel => fun s => s.telemetry.logLevel
  | logFormat => fun s => s.telemetry.logFormat
  | enabled => fun s => s.authorization.enabled
  | grantsFile => fun s => s.authorization.grantsFile
  | taggingAccounts => fun s => s.security.taggingAccounts
  | skippedTypes => fun s => s.security.skippedTypes

def read : (x : Setting) → Decoder x.Value
  | logLevel => Decoder.text "a string"
  | logFormat => Decoder.variant "LogFormat" LogFormat.names
  | enabled => Decoder.boolean
  | grantsFile => fun t => (Decoder.text "path string" t).map some
  | taggingAccounts | skippedTypes => Decoder.list (Decoder.text "a string")

/-- What is given for the setting, or its default. -/
def decode (x : Setting) (given : Option Tree) : Except Problem x.Value :=
  match given with
  | none => .ok (x.get {})
  | some t => Decoder.within x.key (x.read t)

end Setting

section
variable (given : Setting → Option Tree)

def assembleAuthorization : Except Problem Authorization := do
  let enabled ← Setting.enabled.decode (given .enabled)
  let grantsFile ← Setting.grantsFile.decode (given .grantsFile)
  .ok { enabled, grantsFile }

def assembleSecurity : Except Problem Policy := do
  let taggingAccounts ← Setting.taggingAccounts.decode (given .taggingAccounts)
  let skippedTypes ← Setting.skippedTypes.decode (given .skippedTypes)
  .ok { taggingAccounts, skippedTypes }

def assembleTelemetry : Except Problem Telemetry := do
  let logFormat ← Setting.logFormat.decode (given .logFormat)
  let logLevel ← Setting.logLevel.decode (given .logLevel)
  .ok { logFormat, logLevel }

/-- The settings from what is given for each, in the order of their paths. -/
def assemble : Except Problem Settings := do
  let authorization ← Decoder.within "authorization" (assembleAuthorization given)
  let security ← Decoder.within "security" (assembleSecurity given)
  let telemetry ← Decoder.within "telemetry" (assembleTelemetry given)
  .ok { telemetry, authorization, security }

end

namespace Decoder
variable {σ β : Type}

theorem decode_eq_pick {s : Section σ} {es : List (Entry σ)} (h : Sorted s es) {t : Tree}
    (ordered : t.Ordered) (isTable : t.isTable = true) :
    s.decode t = pick (fun k => t.at? [k]) es s.start := by
  simp only [Tree.at?_singleton]
  rw [← byKey_eq_pick h ordered.ascending, Tree.eq_table_of_isTable isTable]
  rfl

theorem step_setting {e : Entry σ} {x : Setting} {set : x.Value → σ → σ} (key : e.key = x.key)
    (reads : ∀ t, e.read t = (x.read t).map set) {v : σ} (start : set (x.get {}) v = v)
    (look : String → Option Tree) :
    step look e v = (x.decode (look x.key)).map (set · v) := by
  unfold step Setting.decode
  rw [key]
  cases look x.key with
  | none => exact congrArg Except.ok start.symm
  | some t =>
    simp only [reads]
    cases x.read t <;> rfl

/-- An entry that is read apart from the others, which are taken after it. -/
theorem pick_cons {α : Type} {look : String → Option Tree} {e : Entry σ} {r : Except Problem α}
    {next : α → σ} {v : σ} (h : step look e v = r.map next) (es : List (Entry σ)) :
    pick look (e :: es) v = r.bind fun a => pick look es (next a) := by
  rw [pick, h]
  cases r <;> rfl

/-- A section of two settings, the first of which has the lesser key. -/
theorem pick_two {e e' : Entry σ} (x y : Setting) (set : x.Value → σ → σ) (set' : y.Value → σ → σ)
    (key : e.key = x.key) (reads : ∀ t, e.read t = (x.read t).map set) (key' : e'.key = y.key)
    (reads' : ∀ t, e'.read t = (y.read t).map set') {v : σ} (start : set (x.get {}) v = v)
    (start' : ∀ a, set' (y.get {}) (set a v) = set a v) (look : String → Option Tree) :
    pick look [e, e'] v =
      (x.decode (look x.key)).bind fun a => (y.decode (look y.key)).bind fun b =>
        .ok (set' b (set a v)) := by
  rw [pick_cons (step_setting key reads start look)]
  congr 1
  funext a
  exact pick_cons (step_setting key' reads' (start' a) look) []

theorem sorted_telemetry : Sorted telemetry telemetry.entries.reverse where
  perm := List.reverse_perm _
  keys := by decide

theorem sorted_authorization : Sorted authorization authorization.entries where
  perm := .refl _
  keys := by decide

theorem sorted_security : Sorted security security.entries where
  perm := .refl _
  keys := by decide

theorem sorted_settings : Sorted settings (settings.entries.drop 1 ++ settings.entries.take 1) where
  perm := List.perm_append_comm.trans (by rw [List.take_append_drop])
  keys := by decide

variable {t : Tree}

theorem decode_telemetry (ordered : t.Ordered) (isTable : t.isTable = true) :
    telemetry.decode t = assembleTelemetry fun x => t.at? [x.key] := by
  rw [decode_eq_pick sorted_telemetry ordered isTable]
  exact pick_two .logFormat .logLevel (fun f (t : Telemetry) => { t with logFormat := f })
    (fun l (t : Telemetry) => { t with logLevel := l }) rfl (fun _ => rfl) rfl (fun _ => rfl) rfl
    (fun _ => rfl) fun k => t.at? [k]

theorem decode_authorization (ordered : t.Ordered) (isTable : t.isTable = true) :
    authorization.decode t = assembleAuthorization fun x => t.at? [x.key] := by
  rw [decode_eq_pick sorted_authorization ordered isTable]
  have reads (t : Tree) :
      (text "path string" t).map (fun p (a : Authorization) => { a with grantsFile := some p }) =
        (Setting.grantsFile.read t).map fun p (a : Authorization) => { a with grantsFile := p } := by
    simp only [Setting.read]
    cases text "path string" t <;> rfl
  exact pick_two .enabled .grantsFile (fun b (a : Authorization) => { a with enabled := b })
    (fun p (a : Authorization) => { a with grantsFile := p }) rfl (fun _ => rfl) rfl reads rfl
    (fun _ => rfl) fun k => t.at? [k]

theorem decode_security (ordered : t.Ordered) (isTable : t.isTable = true) :
    security.decode t = assembleSecurity fun x => t.at? [x.key] := by
  rw [decode_eq_pick sorted_security ordered isTable]
  exact pick_two .taggingAccounts .skippedTypes (fun l (p : Policy) => { p with taggingAccounts := l })
    (fun l (p : Policy) => { p with skippedTypes := l }) rfl (fun _ => rfl) rfl (fun _ => rfl) rfl
    (fun _ => rfl) fun k => t.at? [k]

/-- A section that is a table, or is not there: its settings are given below it, or none is. -/
theorem step_section {β : Type} {s : Section β} {block : (Setting → Option Tree) → Except Problem β}
    (decode : ∀ {u : Tree}, u.Ordered → u.isTable = true → s.decode u = block fun x => u.at? [x.key])
    (start : block (fun _ => none) = .ok s.start) (k : String) (set : β → Settings → Settings)
    (ordered : t.Ordered) (isTable : ∀ u, t.at? [k] = some u → u.isTable = true) {v : Settings}
    (unset : set s.start v = v) :
    step (fun k => t.at? [k]) (entry k s.decode set) v =
      (within k (block fun x => t.at? [k, x.key])).map (set · v) := by
  simp only [step, entry, t.at?_cons k [_]]
  cases found : t.at? [k] with
  | none =>
    simp only [Option.bind_none, start]
    exact congrArg Except.ok unset.symm
  | some u =>
    simp only [Option.bind_some, decode (ordered.at? found) (isTable u found)]
    cases block fun x => u.at? [x.key] <;> rfl

theorem decode_settings (ordered : t.Ordered) (isTable : t.isTable = true)
    (sections : ∀ (x : Setting) u, t.at? [x.home] = some u → u.isTable = true) :
    settings.decode t = assemble fun x => t.at? x.path := by
  have authorized {v : Settings} := step_section decode_authorization rfl "authorization"
    (fun a s => { s with authorization := a }) ordered (sections .enabled) (v := v)
  have secured {v : Settings} := step_section decode_security rfl "security"
    (fun p s => { s with security := p }) ordered (sections .skippedTypes) (v := v)
  have logged {v : Settings} := step_section decode_telemetry rfl "telemetry"
    (fun m s => { s with telemetry := m }) ordered (sections .logLevel) (v := v)
  have parts : assemble (fun x => t.at? x.path) =
      (within "authorization" (assembleAuthorization fun x => t.at? ["authorization", x.key])).bind fun a =>
        (within "security" (assembleSecurity fun x => t.at? ["security", x.key])).bind fun p =>
          (within "telemetry" (assembleTelemetry fun x => t.at? ["telemetry", x.key])).bind fun m =>
            .ok ⟨m, a, p⟩ := rfl
  rw [decode_eq_pick sorted_settings ordered isTable, parts]
  refine (pick_cons (authorized rfl) _).trans (congrArg (Except.bind _) (funext fun a => ?_))
  refine (pick_cons (secured rfl) _).trans (congrArg (Except.bind _) (funext fun p => ?_))
  exact pick_cons (logged rfl) []

end Decoder
end Clearance.Settings
