import Mathlib.Tactic.ByContra
import Clearance.Proofs.Except
import Clearance.Proofs.Settings.File

/-!
Where each setting comes from: the environment, else the file, else its default. What leads nowhere near
a setting makes no difference, nor does the order of variables that do not meet.
-/
namespace Clearance.Settings
open Settings.Tree

theorem within_ok {α : Type} {key : String} {r : Except Problem α} {a : α}
    (h : Decoder.within key r = .ok a) : r = .ok a := by
  cases r with
  | error _ => cases h
  | ok b => exact congrArg Except.ok (Except.ok.inj h)

/-- Settings that were made hold what was given for each. -/
theorem decode_of_assemble {given : Setting → Option Tree} {s : Settings} (h : assemble given = .ok s)
    (x : Setting) : x.decode (given x) = .ok (x.get s) := by
  obtain ⟨a, authorized, h⟩ := bind_ok h
  obtain ⟨p, secured, h⟩ := bind_ok h
  obtain ⟨m, logged, h⟩ := bind_ok h
  cases h
  obtain ⟨_, enabled, authorized⟩ := bind_ok (within_ok authorized)
  obtain ⟨_, grantsFile, authorized⟩ := bind_ok authorized
  cases authorized
  obtain ⟨_, taggingAccounts, secured⟩ := bind_ok (within_ok secured)
  obtain ⟨_, skippedTypes, secured⟩ := bind_ok secured
  cases secured
  obtain ⟨_, logFormat, logged⟩ := bind_ok (within_ok logged)
  obtain ⟨_, logLevel, logged⟩ := bind_ok logged
  cases logged
  cases x <;> assumption

/-- What is given for a setting by a file's table with the environment laid over it. -/
def layered (src : Source) (l : List (String × Toml.Value)) (e : Environment) (x : Setting) :
    Option Tree :=
  (x.given e).or (((Toml.Value.table l).at? x.path).bind (ofToml src))

theorem load_eq_assemble {files : Files} {path : Option String} {l : List (String × Toml.Value)}
    (h : GivesTable files path l) (shaped : ShapedFile l) {e : Environment} (env : ShapedVariables e)
    {t : Tree} (made : ofDocument (sourceOf path) l = some t) :
    load files path e = (assemble (layered (sourceOf path) l e)).mapError .invalid := by
  have ordered : t.Ordered := h.ordered_ofDocument made
  have above := ordered_ofEnvironment e
  have combined := env.shaped.toSectioned.overlay above (sectioned_ofDocument shaped made)
  rw [load_of_made h e made,
    Decoder.decode_settings (above.overlay ordered) combined.isTable combined.sections]
  congr 2
  funext x
  rw [env.shaped.at?_overlay above, env.at?_ofEnvironment, layered]
  rcases at?_ofDocument shaped made x with ⟨none, none'⟩ | ⟨v, u, given, found, made'⟩
  · rw [none, none']
    rfl
  · rw [given, found, Option.bind_some, made']

/-- The setting has the value that the environment gives, else the file's, else the default. -/
def Setting.Follows (x : Setting) (src : Source) (l : List (String × Toml.Value)) (e : Environment)
    (s : Settings) : Prop :=
  match x.given e with
  | some t => x.read t = .ok (x.get s)
  | none =>
    match (Toml.Value.table l).at? x.path with
    | some v => ∃ t, ofToml src v = some t ∧ x.read t = .ok (x.get s)
    | none => x.get s = x.get {}

theorem follows_of_load {files : Files} {path : Option String} {l : List (String × Toml.Value)}
    {e : Environment} {s : Settings} (h : GivesTable files path l) (shaped : ShapedFile l)
    (env : ShapedVariables e) (loaded : load files path e = .ok s) (x : Setting) :
    x.Follows (sourceOf path) l e s := by
  obtain ⟨t, made⟩ := exists_of_load h loaded
  rw [load_eq_assemble h shaped env made] at loaded
  have decoded := decode_of_assemble (mapError_ok loaded) x
  unfold layered at decoded
  unfold Setting.Follows
  cases above : x.given e with
  | some t =>
    rw [above] at decoded
    exact within_ok decoded
  | none =>
    rw [above, Option.none_or] at decoded
    cases found : (Toml.Value.table l).at? x.path with
    | none =>
      rw [found] at decoded
      exact (Except.ok.inj decoded).symm
    | some v =>
      rcases at?_ofDocument shaped made x with ⟨none, _⟩ | ⟨_, u, given, _, made'⟩
      · cases none.symm.trans found
      · cases given.symm.trans found
        rw [found, Option.bind_some, made'] at decoded
        exact ⟨u, made', within_ok decoded⟩

/-- Two tables that differ in foreign keys alone: at any other path they have the same values, tables
apart, which are there for what is in them. -/
def SameButForeign (l l' : List (String × Toml.Value)) : Prop :=
  ∀ (path : List String) (v : Toml.Value), ¬ Foreign path → v.isTable = false →
    ((Toml.Value.table l).at? path = some v ↔ (Toml.Value.table l').at? path = some v)

/-- Files are the same but for foreign keys when they give every setting the same value. -/
theorem sameButForeign_iff {l l' : List (String × Toml.Value)} (shaped : ShapedFile l)
    (shaped' : ShapedFile l') : SameButForeign l l' ↔
      ∀ x : Setting, (Toml.Value.table l).at? x.path = (Toml.Value.table l').at? x.path := by
  constructor
  · intro same x
    have near : ¬ Foreign x.path := fun foreign =>
      (foreign x (Setting.mem_all x)).1 (List.prefix_refl _)
    refine Option.ext fun v => ⟨fun found => ?_, fun found => ?_⟩
    · exact (same x.path v near (shaped.settings x v found)).1 found
    · exact (same x.path v near (shaped'.settings x v found)).2 found
  · intro same path v near leaf
    have absent {l : List (String × Toml.Value)} (shaped : ShapedFile l) {x : Setting}
        (on_the_way : path = [] ∨ path = [x.home]) : (Toml.Value.table l).at? path ≠ some v := by
      intro found
      rcases on_the_way with rfl | rfl
      · cases found
        contradiction
      · rw [(shaped.sections x v found).1] at leaf
        contradiction
    obtain ⟨x, meets⟩ : ∃ x : Setting, path <+: x.path ∨ x.path <+: path := by
      by_contra apart
      exact near fun x _ => ⟨fun h => apart ⟨x, .inl h⟩, fun h => apart ⟨x, .inr h⟩⟩
    rcases meets with above | ⟨rest, rfl⟩
    · by_cases whole : path = x.path
      · rw [whole, same]
      · have on_the_way := Setting.eq_of_prefix above whole
        exact iff_of_false (absent shaped on_the_way) (absent shaped' on_the_way)
    · rw [Toml.Value.at?_append, Toml.Value.at?_append, same]

theorem load_of_same {files files' : Files} {path : Option String} {l l' : List (String × Toml.Value)}
    {e : Environment} (h : GivesTable files path l) (h' : GivesTable files' path l')
    (shaped : ShapedFile l) (shaped' : ShapedFile l')
    (reserved : (∀ v ∈ l, v.2.Unreserved) ↔ ∀ v ∈ l', v.2.Unreserved) (env : ShapedVariables e)
    (same : SameButForeign l l') : load files' path e = load files path e := by
  have both : (∃ t, ofDocument (sourceOf path) l = some t) ↔
      ∃ t, ofDocument (sourceOf path) l' = some t :=
    (exists_ofDocument_iff h.ordered).trans (reserved.trans (exists_ofDocument_iff h'.ordered).symm)
  cases made : ofDocument (sourceOf path) l with
  | none =>
    have unmade : ofDocument (sourceOf path) l' = none :=
      Option.eq_none_iff_forall_ne_some.2 fun t' made' => by
        obtain ⟨t, made''⟩ := both.2 ⟨t', made'⟩
        cases made.symm.trans made''
    rw [load_of_unmade h made, load_of_unmade h' unmade]
  | some t =>
    obtain ⟨t', made'⟩ := both.1 ⟨t, made⟩
    rw [load_eq_assemble h shaped env made, load_eq_assemble h' shaped' env made']
    congr 2
    funext x
    rw [layered, layered, (sameButForeign_iff shaped shaped').1 same]

theorem load_of_relevant {files : Files} {path : Option String} {l : List (String × Toml.Value)}
    {e e' : Environment} (h : GivesTable files path l) (shaped : ShapedFile l) (env : ShapedVariables e)
    (same : e'.entries.filter isRelevant = e.entries.filter isRelevant) :
    load files path e' = load files path e := by
  cases made : ofDocument (sourceOf path) l with
  | none =>
    rw [load_of_unmade h made, load_of_unmade h made]
  | some t =>
    rw [load_eq_assemble h shaped env made, load_eq_assemble h shaped (env.of_relevant same) made]
    congr 2
    funext x
    rw [layered, layered, given_of_relevant same]

theorem load_perm (files : Files) (path : Option String) {e e' : Environment}
    (perm : e'.entries.Perm e.entries) (unrelated : Unrelated e) :
    load files path e' = load files path e := by
  unfold load
  rw [ofEnvironment_perm perm unrelated]

/-- The layers of the settings. Each setting follows the environment, the file and its default, in this
order; keys and variables that lead nowhere near a setting change nothing, whether the settings can be
loaded or not; the order of variables that do not meet changes nothing; and a file that is named must be
there. -/
theorem load_layers :
    (∀ (files : Files) (path : Option String) (l : List (String × Toml.Value)) (e : Environment)
        (s : Settings), GivesTable files path l → ShapedFile l → ShapedVariables e →
      load files path e = .ok s → ∀ x : Setting, x.Follows (sourceOf path) l e s) ∧
    (∀ (files files' : Files) (path : Option String) (l l' : List (String × Toml.Value))
        (e : Environment), GivesTable files path l → GivesTable files' path l' →
      ShapedFile l → ShapedFile l' → ((∀ v ∈ l, v.2.Unreserved) ↔ ∀ v ∈ l', v.2.Unreserved) →
      ShapedVariables e → SameButForeign l l' → load files' path e = load files path e) ∧
    (∀ (files : Files) (path : Option String) (l : List (String × Toml.Value)) (e e' : Environment),
      GivesTable files path l → ShapedFile l → ShapedVariables e →
      e'.entries.filter isRelevant = e.entries.filter isRelevant →
      load files path e' = load files path e) ∧
    (∀ (files : Files) (path : Option String) (e e' : Environment), e'.entries.Perm e.entries →
      Unrelated e → load files path e' = load files path e) ∧
    ∀ (files : Files) (path : String) (e : Environment), files.isFile path = false →
      load files (some path) e = .error (.missing path) := by
  refine ⟨?_, ?_, ?_, ?_, ?_⟩
  · intro files path l e s h shaped env loaded x
    exact follows_of_load h shaped env loaded x
  · intro files files' path l l' e h h' shaped shaped' reserved env same
    exact load_of_same h h' shaped shaped' reserved env same
  · intro files path l e e' h shaped env same
    exact load_of_relevant h shaped env same
  · intro files path e e' perm unrelated
    exact load_perm files path perm unrelated
  · intro files path e missing
    simp [load, ofFile, missing, bind, Except.bind]

/-- A file and two variables; then the file with other keys in it, and the variables with one among them
that is not for the settings, and the other way round. Without the file there is nothing to load. -/
theorem load_layers_mixed :
    let files : Files := fun _ => .ok "telemetry.log_level = \"warn\"".toUTF8
    let files' : Files := fun _ => .ok "[telemetry]\ncolor = true\nlog_level = \"warn\"\n[more]".toUTF8
    let enabled := ("OPSGUARD_AUTHORIZATION__ENABLED", "false")
    let format := ("OPSGUARD_TELEMETRY__LOG_FORMAT", "text")
    let s : Settings := ⟨⟨"warn", .pretty⟩, ⟨false, none⟩, ⟨[], []⟩⟩
    (∀ x : Setting, x.Follows (.file "a.toml") [("telemetry", .table [("log_level", .text "warn")])]
      ⟨[enabled, format]⟩ s) ∧
    load files' (some "a.toml") ⟨[enabled, format]⟩ = .ok s ∧
    load files (some "a.toml") ⟨[enabled, ("OPSGUARD_CONFIG", "b.toml"), format]⟩ = .ok s ∧
    load files (some "a.toml") ⟨[format, enabled]⟩ = .ok s ∧
    load (fun _ => .error .missing) (some "a.toml") ⟨[enabled, format]⟩ = .error (.missing "a.toml") := by
  intro files files' enabled format s
  have parsed : Toml.parse "telemetry.log_level = \"warn\"" =
      some [("telemetry", .table [("log_level", .text "warn")])] :=
    Toml.parse_of_same (by decide +kernel)
  have parsed' : Toml.parse "[telemetry]\ncolor = true\nlog_level = \"warn\"\n[more]" =
      some [("more", .table []),
        ("telemetry", .table [("color", .boolean true), ("log_level", .text "warn")])] :=
    Toml.parse_of_same (by decide +kernel)
  have file : Files.isEmptyDevice "a.toml" = false := by decide +kernel
  have table := givesTable_text parsed file
  have table' := givesTable_text parsed' file
  have shaped : ShapedFile [("telemetry", .table [("log_level", .text "warn")])] := by decide +kernel
  have shaped' : ShapedFile [("more", .table []),
      ("telemetry", .table [("color", .boolean true), ("log_level", .text "warn")])] := by decide +kernel
  have env : ShapedVariables ⟨[enabled, format]⟩ := by decide +kernel
  have unrelated : Unrelated ⟨[enabled, format]⟩ := by decide +kernel
  have same := (sameButForeign_iff shaped shaped').2 fun x => by cases x <;> rfl
  have loaded : load files (some "a.toml") ⟨[enabled, format]⟩ = .ok s := by
    rw [load_of_made table _ rfl]
    exact eq_ok_of_toOption (by decide +kernel)
  obtain ⟨follows, keys, relevant, order, missing⟩ := load_layers
  refine ⟨follows _ _ _ _ _ table shaped env loaded, ?_, ?_, ?_, missing _ _ _ rfl⟩
  · have made := (@exists_ofDocument_iff .environment _ table.ordered).1 ⟨_, rfl⟩
    have made' := (@exists_ofDocument_iff .environment _ table'.ordered).1 ⟨_, rfl⟩
    exact (keys _ _ _ _ _ _ table table' shaped shaped' (iff_of_true made made') env same).trans loaded
  · exact (relevant _ _ _ _ _ table shaped env (by decide +kernel)).trans loaded
  · exact (order _ _ _ _ (.swap ..) unrelated).trans loaded

/-- A key that stands for its table's value, and a key that no table may have. Their paths are foreign,
but added to an empty file each keeps it from being loaded. -/
theorem load_special_keys :
    Foreign ["telemetry", "___figment_value_value"] ∧ Foreign ["more", "___figment_value_id"] ∧
      Toml.parse "" = some [] ∧
      Toml.parse "telemetry.___figment_value_value = 1" =
        some [("telemetry", .table [("___figment_value_value", .integer 1)])] ∧
      Toml.parse "more.___figment_value_id = 1" =
        some [("more", .table [("___figment_value_id", .integer 1)])] ∧
      load (fun _ => .ok "".toUTF8) (some "a.toml") {} = .ok {} ∧
      (∀ s, load (fun _ => .ok "telemetry.___figment_value_value = 1".toUTF8) (some "a.toml") {} ≠ .ok s) ∧
      ∀ s, load (fun _ => .ok "more.___figment_value_id = 1".toUTF8) (some "a.toml") {} ≠ .ok s := by
  have file : Files.isEmptyDevice "a.toml" = false := by decide +kernel
  have empty : Toml.parse "" = some [] := Toml.parse_of_same (by decide +kernel)
  have special : Toml.parse "telemetry.___figment_value_value = 1" =
      some [("telemetry", .table [("___figment_value_value", .integer 1)])] :=
    Toml.parse_of_same (by decide +kernel)
  have reserved : Toml.parse "more.___figment_value_id = 1" =
      some [("more", .table [("___figment_value_id", .integer 1)])] :=
    Toml.parse_of_same (by decide +kernel)
  refine ⟨by decide, by decide, empty, special, reserved, ?_, fun s loaded => ?_, fun s loaded => ?_⟩
  · rw [load_of_made (givesTable_text empty file) {} rfl]
    rfl
  · rw [load_of_made (givesTable_text special file) {} rfl] at loaded
    cases loaded
  · obtain ⟨t, made⟩ := exists_of_load (givesTable_text reserved file) loaded
    cases made

end Clearance.Settings
