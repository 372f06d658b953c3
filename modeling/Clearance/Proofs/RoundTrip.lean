import Clearance.Identity
import Clearance.Proofs.Grants.Reading
import Clearance.Proofs.Json.Printing
import Clearance.Proofs.Settings.Members

/-!
What is printed as JSON is read back: settings, policies, identities, and the names of formats, kinds and
levels. What was read from any other text is printed as one text, and from then on stays the same.
-/
namespace Clearance
open Json

namespace Json

/-- Each value is read back from its compact text; so is a value that was read from another text, and its
compact text is the same again. -/
structure RoundTrips {α : Type} (read : Reader α) (toValue : α → Value) : Prop where
  back : ∀ a, parse read (toValue a).compact = .ok a
  again : ∀ t a, parse read t = .ok a →
    ∃ b, parse read (toValue a).compact = .ok b ∧ b = a ∧ (toValue b).compact = (toValue a).compact

theorem roundTrips_of_reads {α : Type} {read : Reader α} {toValue : α → Value}
    (h : ∀ a, Reads read (toValue a).datum a) : RoundTrips read toValue where
  back a := parse_written (h a) (toValue a).writtenAs_compact
  again _ a _ := ⟨a, parse_written (h a) (toValue a).writtenAs_compact, rfl, rfl⟩

end Json

theorem reads_identity (i : Identity) : Reads Identity.reader i.toValue.datum i :=
  reads_map (fun p : String => (⟨p⟩ : Identity)) (reads_text "a string" i.principal)

theorem reads_format (f : LogFormat) : Reads LogFormat.reader f.toValue.datum f := by
  cases f <;> exact reads_variant rfl

theorem reads_kind (k : Kind) : Reads Kind.vocabulary.reader k.toValue.datum k := by
  rw [k.toValue_eq]
  exact reads_variant ((Kind.spells.json_iff k.name k).2 rfl)

theorem reads_printed_level (l : Level) : Reads Level.vocabulary.reader l.toValue.datum l := by
  rw [l.toValue_eq]
  exact reads_level l

namespace Settings

theorem overlaid_telemetry (t : Telemetry) : ∀ p ∈ Home.telemetry.parts,
    p.Overlaid [("log_level", .ofText t.logLevel), ("log_format", t.logFormat.toValue.datum)]
      Telemetry.record.start t := by
  have format : Setting.logFormat.Form t.logFormat t.logFormat.toValue.datum := by
    cases t.logFormat with
    | json => exact ⟨"json", rfl, .inl rfl⟩
    | pretty => exact ⟨"pretty", rfl, .inl rfl⟩
  simp only [Home.telemetry, List.forall_mem_cons]
  exact ⟨.given rfl rfl, .given rfl format, List.forall_mem_nil _⟩

theorem overlaid_authorization (a : Authorization) : ∀ p ∈ Home.authorization.parts,
    p.Overlaid [("enabled", .boolean a.enabled), ("grants_file", .ofOption .ofText a.grantsFile)]
      Authorization.record.start a := by
  simp only [Home.authorization, List.forall_mem_cons]
  exact ⟨.given rfl rfl, .given rfl rfl, List.forall_mem_nil _⟩

theorem overlaid_security (p : Policy) : ∀ q ∈ Home.security.parts,
    q.Overlaid [("allow_unauthenticated_image_tagging_in_accounts", .ofList .ofText p.taggingAccounts),
      ("skip_authorization_for", .ofList .ofText p.skippedTypes)] Policy.record.start p := by
  simp only [Home.security, List.forall_mem_cons]
  exact ⟨.given rfl rfl, .given rfl rfl, List.forall_mem_nil _⟩

theorem datum_policy (p : Policy) : p.toValue.datum = .ofMembers
    [("allow_unauthenticated_image_tagging_in_accounts", .ofList .ofText p.taggingAccounts),
      ("skip_authorization_for", .ofList .ofText p.skippedTypes)] := by
  simp only [Policy.toValue, Value.datum, Value.memberData, Value.datum_texts]

theorem datum_settings (s : Settings) : s.toValue.datum = .ofMembers
    [("telemetry", .ofMembers
        [("log_level", .ofText s.telemetry.logLevel), ("log_format", s.telemetry.logFormat.toValue.datum)]),
      ("authorization", .ofMembers [("enabled", .boolean s.authorization.enabled),
        ("grants_file", .ofOption .ofText s.authorization.grantsFile)]),
      ("security", s.security.toValue.datum)] := by
  simp only [toValue, Value.datum, Value.memberData, Value.datum_ofOption]

theorem reads_policy (p : Policy) : Reads Policy.record.reader p.toValue.datum p := by
  rw [datum_policy]
  exact Home.security.parted.reads (overlaid_security p)

theorem reads_settings (s : Settings) : Reads record.reader s.toValue.datum s := by
  rw [datum_settings]
  apply parted.reads
  simp only [parts, List.forall_mem_cons]
  exact ⟨.given rfl ⟨_, rfl, overlaid_telemetry s.telemetry⟩,
    .given rfl ⟨_, rfl, overlaid_authorization s.authorization⟩,
    .given rfl ⟨_, datum_policy s.security, overlaid_security s.security⟩, List.forall_mem_nil _⟩

end Settings

/-- Everything that is printed as JSON is read back. From an object of theirs, settings and policies are
read as the defaults with what is given laid over them, and nothing may be given twice. -/
theorem printed_read_back :
    (RoundTrips Settings.record.reader Settings.toValue ∧
      RoundTrips Policy.record.reader Policy.toValue ∧ RoundTrips Identity.reader Identity.toValue ∧
      RoundTrips LogFormat.reader LogFormat.toValue ∧ RoundTrips Kind.vocabulary.reader Kind.toValue ∧
      RoundTrips Level.vocabulary.reader Level.toValue) ∧
    (∀ t l, WrittenAs t (.ofMembers l) →
      (Settings.Typed l → (∀ x : Settings.Setting, ¬ x.Repeated l) →
        ∃ s, Json.parse Settings.record.reader t = .ok s ∧
          ∀ x : Settings.Setting, x.Overlaid (x.Given l) s) ∧
      ((∃ x : Settings.Setting, x.Repeated l) →
        ∃ e, Json.parse Settings.record.reader t = .error e)) ∧
    (∀ t l, WrittenAs t (.ofMembers l) →
      ((∀ x : Settings.Setting, x.home = "security" → ∀ y, (x.key, y) ∈ l → ∃ v, x.Form v y) →
        (∀ x : Settings.Setting, x.home = "security" → (valuesOf x.key l).length ≤ 1) →
        ∃ p, Json.parse Policy.record.reader t = .ok p ∧ ∀ x : Settings.Setting, x.home = "security" →
          x.Overlaid (fun y => (x.key, y) ∈ l) { security := p }) ∧
      ((∃ x : Settings.Setting, x.home = "security" ∧ 1 < (valuesOf x.key l).length) →
        ∃ e, Json.parse Policy.record.reader t = .error e)) := by
  have settings := roundTrips_of_reads Settings.reads_settings
  have policies := roundTrips_of_reads Settings.reads_policy
  have identities := roundTrips_of_reads reads_identity
  have formats := roundTrips_of_reads reads_format
  have kinds := roundTrips_of_reads reads_kind
  have levels : RoundTrips Level.vocabulary.reader Level.toValue := roundTrips_of_reads reads_printed_level
  refine ⟨⟨settings, policies, identities, formats, kinds, levels⟩, ?_, ?_⟩
  · intro t l written
    refine ⟨Settings.parse_overlaid written, ?_⟩
    rintro ⟨x, repeated⟩
    exact Settings.parse_repeated written repeated
  · intro t l written
    refine ⟨Settings.parse_policy_overlaid written, ?_⟩
    rintro ⟨x, home, twice⟩
    exact Settings.parse_policy_repeated written home twice

/-- A section with one setting and a member that is unknown; the same setting twice; a policy. -/
theorem printed_read_back_partial :
    Json.parse Settings.record.reader
        "\x7b\"telemetry\":\x7b\"x\":[],\"log_format\":\"text\"\x7d\x7d" =
      .ok { telemetry := { logFormat := .pretty } } ∧
    (∃ e, Json.parse Settings.record.reader
        "\x7b\"telemetry\":\x7b\"log_level\":\"a\",\"log_level\":\"b\"\x7d\x7d" = .error e) ∧
    Json.parse Policy.record.reader "\x7b\"skip_authorization_for\":[\"t\"]\x7d" =
      .ok { skippedTypes := ["t"] } := by
  obtain ⟨-, settings, policies⟩ := printed_read_back
  refine ⟨?_, ?_, ?_⟩
  · let m : List (String × Datum) := [("x", .list []), ("log_format", .ofText "text")]
    have written : WrittenAs "\x7b\"telemetry\":\x7b\"x\":[],\"log_format\":\"text\"\x7d\x7d"
        (.ofMembers [("telemetry", .ofMembers m)]) := Value.writtenAs_compact
      (.object [("telemetry", .object [("x", .list []), ("log_format", .text "text")])])
    have only (x : Settings.Setting) (y : Datum) (mem : (x.key, y) ∈ m) :
        x = .logFormat ∧ y = .ofText "text" := by
      have value := mem_valuesOf.2 mem
      cases x with
      | logFormat => exact ⟨rfl, List.mem_singleton.1 value⟩
      | _ => cases value
    have forms (x : Settings.Setting) (_ : x.home = "telemetry") (y : Datum) (mem : (x.key, y) ∈ m) :
        ∃ v, x.Form v y := by
      obtain ⟨rfl, rfl⟩ := only x y mem
      exact ⟨.pretty, "text", rfl, .inl rfl⟩
    have once (x : Settings.Setting) : (valuesOf x.key m).length ≤ 1 := by cases x <;> decide
    obtain ⟨s, parsed, overlaid⟩ := (settings _ _ written).1 (Settings.typed_singleton forms)
      fun x => Settings.Setting.not_repeated_singleton (once x)
    rw [parsed]
    refine congrArg _ (Settings.ext_get fun x => ?_)
    by_cases given : x = .logFormat
    · subst given
      have text : Settings.Setting.logFormat.Given [("telemetry", .ofMembers m)] (.ofText "text") :=
        Settings.Setting.given_singleton.2 ⟨rfl, .tail _ (.head _)⟩
      obtain ⟨k, known, same | same⟩ := (overlaid .logFormat).1 _ text
      · obtain rfl := marks_injective (Datum.text.inj same)
        exact (Option.some.inj known).symm
      · cases same
    · have unset : x.get s = x.get {} := (overlaid x).2 fun y here =>
        given (only x y (Settings.Setting.given_singleton.1 here).2).1
      rw [unset]
      cases x with
      | logFormat => exact absurd rfl given
      | _ => rfl
  · have written : WrittenAs "\x7b\"telemetry\":\x7b\"log_level\":\"a\",\"log_level\":\"b\"\x7d\x7d"
        (.ofMembers [("telemetry", .ofMembers [("log_level", .ofText "a"), ("log_level", .ofText "b")])]) :=
      Value.writtenAs_compact
        (.object [("telemetry", .object [("log_level", .text "a"), ("log_level", .text "b")])])
    exact (settings _ _ written).2 ⟨.logLevel, .inr ⟨_, .head _, by decide⟩⟩
  · let m : List (String × Datum) := [("skip_authorization_for", .list [.ofText "t"])]
    have written : WrittenAs "\x7b\"skip_authorization_for\":[\"t\"]\x7d" (.ofMembers m) :=
      Value.writtenAs_compact (.object [("skip_authorization_for", .list [.text "t"])])
    have forms (x : Settings.Setting) (_ : x.home = "security") (y : Datum) (mem : (x.key, y) ∈ m) :
        ∃ v, x.Form v y := by
      have value := mem_valuesOf.2 mem
      cases x with
      | skippedTypes => exact ⟨["t"], List.mem_singleton.1 value⟩
      | _ => cases value
    have once (x : Settings.Setting) : (valuesOf x.key m).length ≤ 1 := by cases x <;> decide
    obtain ⟨p, parsed, overlaid⟩ := (policies _ _ written).1 forms fun x _ => once x
    have tagging : p.taggingAccounts = [] := by
      apply (overlaid .taggingAccounts rfl).2
      intro y mem
      cases mem_valuesOf.2 mem
    have skipped : p.skippedTypes = ["t"] := by
      have form : Datum.ofList .ofText ["t"] = .ofList .ofText p.skippedTypes :=
        (overlaid .skippedTypes rfl).1 _ (.head _)
      exact (List.map_injective_iff.2 Datum.ofText_injective (Datum.list.inj form)).symm
    rw [parsed]
    exact congrArg _ (Policy.ext tagging skipped)

end Clearance
