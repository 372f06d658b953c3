import Clearance.Proofs.Command.Stages

/-!
What is told of a failure. Each stage has words of its own to begin with, so that a failure is not taken
for one of another stage, nor for one of another file where it is a file that cannot be read.
-/
namespace Clearance

namespace Settings
variable {files : Files} {path : String}

/-- A file that is not TOML has been read. -/
theorem ofFile_error {err : LoadError} (h : ofFile files path = .error err) :
    err = .missing path ∨ err = .notToml path ∧ ∃ bytes, files path = .ok bytes := by
  unfold ofFile at h
  cases isFile : files.isFile path with
  | false =>
    simp only [isFile, Bool.not_false, if_true, bind, Except.bind] at h
    exact .inl (Except.error.inj h).symm
  | true =>
    simp only [isFile, Bool.not_true, Bool.false_eq_true, if_false, bind, Except.bind] at h
    have found : (files path).isOk = true := (Bool.and_eq_true_iff.1 isFile).1
    split at h
    · cases h
    · refine .inr ⟨(Except.error.inj h).symm, ?_⟩
      cases read : files path with
      | error fault =>
        rw [read] at found
        cases found
      | ok bytes => exact ⟨bytes, rfl⟩

theorem notToml_of_load {config : Option String} {e : Environment}
    (h : load files config e = .error (.notToml path)) :
    config = some path ∧ ∃ bytes, files path = .ok bytes := by
  have decoded {t : Tree} : (Decoder.settings.decode t).mapError LoadError.invalid ≠
      .error (.notToml path) := by
    cases Decoder.settings.decode t <;> exact nofun
  cases config with
  | none => exact absurd h decoded
  | some path' =>
    simp only [load, bind] at h
    cases source : ofFile files path' with
    | ok below =>
      rw [source] at h
      exact absurd h decoded
    | error err =>
      rw [source] at h
      obtain rfl := Except.error.inj h
      rcases ofFile_error source with missing | ⟨same, read⟩
      · cases missing
      · obtain rfl := LoadError.notToml.inj same
        exact ⟨rfl, read⟩

end Settings

namespace Command

/-- What is told of a failure: the stage that failed, then its cause, and again what is behind that. -/
inductive Tells (host : Host) (files : Files) : Failure → List String → Prop where
  | missing (path : String) : Tells host files (.settings (.missing path))
      ["loading configuration", "config file not found: " ++ path]
  | notToml {path cause : String} {bytes : ByteArray} (read : files path = .ok bytes)
      (worded : cause = host.tomlFault bytes ++ " in " ++ Settings.shownPath path ++ " TOML file") :
    Tells host files (.settings (.notToml path))
      ["loading configuration", "failed to load config: " ++ cause, cause]
  | invalid (p : Settings.Problem) : Tells host files (.settings (.invalid p))
      ["loading configuration", "failed to load config: " ++ p.message, p.message]
  | grantsUnread (path : String) (fault : ReadFault) :
    Tells host files (.grants (.unreadable path fault)) ["reading grant table " ++ path, fault.message]
  | grantsMalformed (path : String) (e : Json.Error) :
    Tells host files (.grants (.malformed path ⟨e⟩))
      ["parsing grant table " ++ path, "invalid grant table: " ++ e.message, e.message]
  | operationUnread (path : String) (fault : ReadFault) :
    Tells host files (.unreadable path fault) ["reading operation document " ++ path, fault.message]
  | documentMalformed (e : Json.Error) : Tells host files (.document (.malformed e))
      ["parsing operation document", "validation failed: operation document: " ++ e.message]
  | blankType : Tells host files (.document .blankType)
      ["parsing operation document", "invalid name: operation type must not be blank"]

/-- The line of an error with its causes. -/
def errorLine (causes : List String) : String := "error: " ++ String.intercalate ": " causes

theorem errorLine_settings (cause : String) :
    errorLine ["loading configuration", "failed to load config: " ++ cause, cause] =
      "error: " ++ ("loading configuration: " ++ ("failed to load config: " ++ cause) ++ (": " ++ cause)) :=
  congrArg ("error: " ++ ·) (String.append_assoc ..)

theorem errorLine_file (words path cause : String) :
    errorLine [words ++ path, cause] = "error: " ++ (words ++ (path ++ (": " ++ cause))) := by
  refine congrArg ("error: " ++ ·) (?_ : words ++ path ++ ": " ++ cause = _)
  rw [String.append_assoc, String.append_assoc]

theorem Host.words_of_read {files : Files} {path : String} {bytes : ByteArray}
    (read : files path = .ok bytes) (host : Host) : host.words files path = host.tomlFault bytes := by
  unfold words
  rw [read]
  rfl

theorem failed_notToml (words : String → String) (path : String) :
    failed words (.settings (.notToml path)) =
      errorLine ["loading configuration",
        "failed to load config: " ++ Settings.notTomlMessage words path,
        Settings.notTomlMessage words path] :=
  (errorLine_settings _).symm

theorem tells_of_stops {files : Files} {e : Environment} {i : Invocation} {f : Failure} (host : Host)
    (h : Stops files e i f) :
    ∃ causes, Tells host files f causes ∧ failed (host.words files) f = errorLine causes := by
  cases h with
  | @settings err unloaded =>
    cases err with
    | missing path => exact ⟨_, .missing path, congrArg ("error: " ++ ·) (String.append_empty ..)⟩
    | notToml path =>
      obtain ⟨-, bytes, read⟩ := Settings.notToml_of_load unloaded
      refine ⟨_, .notToml read rfl, ?_⟩
      rw [failed_notToml, Settings.notTomlMessage, host.words_of_read read]
    | invalid p => exact ⟨_, .invalid p, (errorLine_settings p.message).symm⟩
  | grantsUnread => exact ⟨_, .grantsUnread _ _, rfl⟩
  | grantsMalformed => exact ⟨_, .grantsMalformed _ _, rfl⟩
  | operationUnread => exact ⟨_, .operationUnread _ _, rfl⟩
  | @documentMalformed _ _ cause =>
    cases cause with
    | malformed e => exact ⟨_, .documentMalformed e, rfl⟩
    | blankType => exact ⟨_, .blankType, rfl⟩

/-! ### Telling failures apart -/

/-- The words of the stage that failed. -/
def Failure.opening : Failure → String
  | .settings _ => "loading configuration: "
  | .grants (.unreadable ..) => "reading grant table "
  | .grants (.malformed ..) => "parsing grant table "
  | .unreadable .. => "reading operation document "
  | .document _ => "parsing operation document: "

/-- The file that could not be read, and why. -/
def Failure.unread? : Failure → Option (String × ReadFault)
  | .grants (.unreadable path fault) | .unreadable path fault => some (path, fault)
  | _ => none

/-- Failures of one stage, and of one file in the same way if it could not be read. -/
structure Failure.Alike (f f' : Failure) : Prop where
  opening : f.opening = f'.opening
  unread : f.unread? = f'.unread?

def openings : List String :=
  ["loading configuration: ", "reading grant table ", "parsing grant table ",
    "reading operation document ", "parsing operation document: "]

theorem Failure.opening_mem (f : Failure) : f.opening ∈ openings := by
  rcases f with _ | (_ | _) | _ | _ <;> simp [opening, openings]

theorem Failure.isSome_unread? (f : Failure) : f.unread?.isSome =
    ["reading grant table ", "reading operation document "].contains f.opening := by
  rcases f with _ | (_ | _) | _ | _ <;> rfl

theorem openings_apart :
    ∀ a ∈ openings, ∀ b ∈ openings, a.toList <+: b.toList → a = b := by decide +kernel

def faults : List ReadFault :=
  [.missing, .isDirectory, .notDirectory, .nameTooLong, .zeroInName, .notText]

theorem mem_faults (fault : ReadFault) : fault ∈ faults := by cases fault <;> decide

/-- No fault ends as another does. -/
theorem faults_apart : ∀ fault ∈ faults, ∀ fault' ∈ faults,
    (": " ++ fault.message).toList <:+ (": " ++ fault'.message).toList → fault = fault' := by
  decide +kernel

theorem opening_inj {a b rest rest' : String} (known : a ∈ openings) (known' : b ∈ openings)
    (same : a ++ rest = b ++ rest') : a = b := by
  have lists : a.toList ++ rest.toList = b.toList ++ rest'.toList := by
    rw [← String.toList_append, same, String.toList_append]
  rcases List.prefix_or_prefix_of_prefix (List.prefix_append a.toList rest.toList)
    (lists ▸ List.prefix_append b.toList rest'.toList) with shorter | longer
  · exact openings_apart a known b known' shorter
  · exact (openings_apart b known' a known longer).symm

theorem fault_inj {path path' : String} {fault fault' : ReadFault}
    (same : path ++ (": " ++ fault.message) = path' ++ (": " ++ fault'.message)) :
    path = path' ∧ fault = fault' := by
  have lists : path.toList ++ (": " ++ fault.message).toList =
      path'.toList ++ (": " ++ fault'.message).toList := by
    rw [← String.toList_append, same, String.toList_append]
  obtain rfl : fault = fault' := by
    have ends : (": " ++ fault'.message).toList <:+ path.toList ++ (": " ++ fault.message).toList :=
      lists ▸ List.suffix_append path'.toList _
    rcases List.suffix_or_suffix_of_suffix (List.suffix_append path.toList _) ends with shorter | longer
    · exact faults_apart fault (mem_faults _) fault' (mem_faults _) shorter
    · exact (faults_apart fault' (mem_faults _) fault (mem_faults _) longer).symm
  exact ⟨(String.append_left_inj _).1 same, rfl⟩

section Tells
variable {host host' : Host} {files files' : Files} {f f' : Failure} {causes causes' : List String}

theorem Tells.opens (h : Tells host files f causes) :
    ∃ rest, errorLine causes = "error: " ++ (f.opening ++ rest) := by
  cases h with
  | missing path => exact ⟨_, rfl⟩
  | notToml read worded =>
    exact ⟨_, (errorLine_settings _).trans (congrArg ("error: " ++ ·) (String.append_assoc ..))⟩
  | invalid p =>
    exact ⟨_, (errorLine_settings _).trans (congrArg ("error: " ++ ·) (String.append_assoc ..))⟩
  | grantsUnread path fault => exact ⟨_, errorLine_file ..⟩
  | grantsMalformed path e =>
    let cause := "invalid grant table: " ++ e.message
    refine ⟨path ++ (": " ++ (cause ++ (": " ++ e.message))), congrArg ("error: " ++ ·) ?_⟩
    change "parsing grant table " ++ path ++ ": " ++ cause ++ ": " ++ e.message = "parsing grant table " ++ _
    simp only [String.append_assoc]
  | operationUnread path fault => exact ⟨_, errorLine_file ..⟩
  | documentMalformed e => exact ⟨_, rfl⟩
  | blankType => exact ⟨_, rfl⟩

theorem Tells.of_unread (h : Tells host files f causes) {path : String} {fault : ReadFault}
    (unread : f.unread? = some (path, fault)) :
    errorLine causes = "error: " ++ (f.opening ++ (path ++ (": " ++ fault.message))) := by
  cases h with
  | grantsUnread | operationUnread =>
    cases unread
    exact errorLine_file ..
  | _ => cases unread

/-- Failures of which the same is told are alike. -/
theorem Tells.alike (h : Tells host files f causes) (h' : Tells host' files' f' causes')
    (same : errorLine causes = errorLine causes') : f.Alike f' := by
  obtain ⟨rest, opens⟩ := h.opens
  obtain ⟨rest', opens'⟩ := h'.opens
  have stage : f.opening = f'.opening := by
    rw [opens, opens', String.append_right_inj] at same
    exact opening_inj f.opening_mem f'.opening_mem same
  have both : f.unread?.isSome = f'.unread?.isSome := by
    rw [f.isSome_unread?, f'.isSome_unread?, stage]
  refine ⟨stage, ?_⟩
  cases unread : f.unread? with
  | none =>
    rw [unread] at both
    exact (Option.isSome_eq_false_iff.trans Option.isNone_iff_eq_none).1 both.symm |>.symm
  | some found =>
    rw [unread] at both
    obtain ⟨found', unread'⟩ := Option.isSome_iff_exists.1 both.symm
    rw [h.of_unread unread, h'.of_unread unread', stage, String.append_right_inj,
      String.append_right_inj] at same
    obtain ⟨paths, faults⟩ := fault_inj same
    rw [unread', Prod.ext paths faults]

end Tells

end Command
end Clearance
