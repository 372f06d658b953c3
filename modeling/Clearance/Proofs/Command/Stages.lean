import Clearance.Command.Run
import Clearance.Proofs.Authorizer.Verdict

/-!
The stages of a run and how it ends. A run loads its settings, reads and decodes the grants, reads the
operation and decodes it. The first of these that fails ends it: nothing but log lines is printed, and
what a later stage would have looked at makes no difference. A run that gets past all of them ends as
its report says.
-/
namespace Clearance

namespace Authorizer

/-- What is rejected and what is decided come from one evaluation. -/
theorem allowed_iff_of_evaluate? {a : Authorizer} {o : Operation} {identity : Option Identity}
    {p : Policy} {ev : Evaluation} (h : a.evaluate? (some o) identity p = some ev) :
    ev.decision.allowed = true ↔ ev.rejections = [] := by
  obtain ⟨b, rfl⟩ := exists_summary h
  exact summary_allowed_iff b o identity p []

end Authorizer

/-- An operation passes if it is not evaluated at all, or if the decision allows it. -/
theorem rejections_eq_nil_iff {a : Authorizer} {s : Settings} {text : String}
    {principal : Option String} {o : Outcome} (h : check a s text principal = .ok o) :
    o.rejections = [] ↔
      o.decision = none ∨ ∃ decision, o.decision = some decision ∧ decision.allowed = true := by
  unfold check at h
  cases parsed : Document.parse text with
  | error e =>
    rw [parsed] at h
    cases h
  | ok d =>
    rw [parsed] at h
    obtain rfl := Except.ok.inj h
    unfold Outcome.rejections Outcome.decision
    cases evaluated : a.evaluate? (some d.operation) (some (caller principal)) s.security with
    | none => simp
    | some ev => simp [Authorizer.allowed_iff_of_evaluate? evaluated]

namespace Command

/-- The grants that a run is to use, whether authorization is enabled or not. -/
def grantsPath (i : Invocation) (s : Settings) : Option String :=
  i.grants.or s.authorization.grantsFile

def GrantsRead (files : Files) (i : Invocation) (s : Settings) : Prop :=
  ∀ path, grantsPath i s = some path →
    ∃ text table, files.readText path = .ok text ∧ GrantTable.parse text = .ok table

/-- The first stage that fails, with its fault. -/
inductive Stops (files : Files) (e : Environment) (i : Invocation) : Failure → Prop where
  | settings {err : Settings.LoadError} :
    Settings.load files i.config e = .error err → Stops files e i (.settings err)
  | grantsUnread {s : Settings} {path : String} {fault : ReadFault} :
    Settings.load files i.config e = .ok s → grantsPath i s = some path →
    files.readText path = .error fault → Stops files e i (.grants (.unreadable path fault))
  | grantsMalformed {s : Settings} {path text : String} {cause : GrantTable.Error} :
    Settings.load files i.config e = .ok s → grantsPath i s = some path →
    files.readText path = .ok text → GrantTable.parse text = .error cause →
    Stops files e i (.grants (.malformed path cause))
  | operationUnread {s : Settings} {fault : ReadFault} :
    Settings.load files i.config e = .ok s → GrantsRead files i s →
    files.readText i.operation = .error fault → Stops files e i (.unreadable i.operation fault)
  | documentMalformed {s : Settings} {text : String} {cause : Document.Error} :
    Settings.load files i.config e = .ok s → GrantsRead files i s →
    files.readText i.operation = .ok text → Document.parse text = .error cause →
    Stops files e i (.document cause)

theorem grantTable_load (files : Files) (path : String) :
    GrantTable.load files path =
      match files.readText path with
      | .error fault => .error (.unreadable path fault)
      | .ok text => (GrantTable.parse text).mapError (.malformed path) := by
  unfold GrantTable.load
  cases files.readText path <;> rfl

theorem loadGrants_none {files : Files} {i : Invocation} {s : Settings}
    (unnamed : grantsPath i s = none) : loadGrants files i s = .ok none := by
  unfold grantsPath at unnamed
  unfold loadGrants
  rw [unnamed]

theorem loadGrants_some {files : Files} {i : Invocation} {s : Settings} {path : String}
    (named : grantsPath i s = some path) :
    loadGrants files i s = ((GrantTable.load files path).map some).mapError .grants := by
  unfold grantsPath at named
  unfold loadGrants
  rw [named]

theorem loadGrants_cases (files : Files) (i : Invocation) (s : Settings) :
    (∃ path fault, grantsPath i s = some path ∧ files.readText path = .error fault ∧
      loadGrants files i s = .error (.grants (.unreadable path fault))) ∨
    (∃ path text cause, grantsPath i s = some path ∧ files.readText path = .ok text ∧
      GrantTable.parse text = .error cause ∧
      loadGrants files i s = .error (.grants (.malformed path cause))) ∨
    GrantsRead files i s ∧ ∃ grants, loadGrants files i s = .ok grants := by
  cases named : grantsPath i s with
  | none =>
    refine .inr (.inr ⟨fun path h => ?_, none, loadGrants_none named⟩)
    cases named.symm.trans h
  | some path =>
    rw [loadGrants_some named, grantTable_load]
    cases read : files.readText path with
    | error fault => exact .inl ⟨path, fault, rfl, read, rfl⟩
    | ok text =>
      cases parsed : GrantTable.parse text with
      | error cause =>
        refine .inr (.inl ⟨path, text, cause, rfl, read, parsed, ?_⟩)
        simp only [parsed]
        rfl
      | ok table =>
        refine .inr (.inr ⟨fun path' h => ?_, some table, ?_⟩)
        · obtain rfl := Option.some.inj (named.symm.trans h)
          exact ⟨text, table, read, parsed⟩
        · simp only [parsed]
          rfl

theorem check_error {a : Authorizer} {s : Settings} {text : String} {principal : Option String}
    {cause : Document.Error} (h : check a s text principal = .error cause) :
    Document.parse text = .error cause := by
  unfold check at h
  cases parsed : Document.parse text with
  | error e =>
    rw [parsed] at h
    exact congrArg Except.error (Except.error.inj h)
  | ok d =>
    rw [parsed] at h
    cases h

/-- Every stage is passed, and the operation is checked with this outcome. -/
def Completes (files : Files) (e : Environment) (i : Invocation) (s : Settings)
    (grants : Option GrantTable) (o : Outcome) : Prop :=
  Settings.load files i.config e = .ok s ∧ loadGrants files i s = .ok grants ∧
    ∃ text, files.readText i.operation = .ok text ∧
      check (s.authorizer grants).1 s text i.principal = .ok o

/-- What is logged before the operation is read: what is wrong with the wiring of the authorizer. -/
def wiring (s : Settings) : Except Failure (Option GrantTable) → List Event
  | .error _ => []
  | .ok grants => (s.authorizer grants).2

theorem loadGrants_of_read {files : Files} {i : Invocation} {s : Settings}
    (granted : GrantsRead files i s) : ∃ grants, loadGrants files i s = .ok grants := by
  rcases loadGrants_cases files i s with
    ⟨path, fault, named, unread, _⟩ | ⟨path, text, cause, named, read, malformed, _⟩ | ⟨_, h⟩
  · obtain ⟨text, _, read, _⟩ := granted path named
    cases unread.symm.trans read
  · obtain ⟨text', table, read', parsed⟩ := granted path named
    obtain rfl := Except.ok.inj (read.symm.trans read')
    cases malformed.symm.trans parsed
  · exact h

section Stops
variable {files : Files} {e : Environment} {i : Invocation} {s : Settings} {f : Failure}

/-- A run that stops prints nothing but log lines, and fails with the fault of the stage. -/
theorem runCheck_of_stops (host : Host) (loaded : Settings.load files i.config e = .ok s)
    (h : Stops files e i f) :
    runCheck files i s host = ((wiring s (loadGrants files i s)).map .log, .error f) := by
  cases h with
  | settings failed => cases loaded.symm.trans failed
  | grantsUnread loaded' named unread =>
    obtain rfl := Except.ok.inj (loaded.symm.trans loaded')
    unfold runCheck
    rw [loadGrants_some named, grantTable_load, unread]
    rfl
  | grantsMalformed loaded' named read malformed =>
    obtain rfl := Except.ok.inj (loaded.symm.trans loaded')
    unfold runCheck
    rw [loadGrants_some named, grantTable_load, read]
    simp only [malformed]
    rfl
  | operationUnread loaded' granted unread =>
    obtain rfl := Except.ok.inj (loaded.symm.trans loaded')
    obtain ⟨grants, h⟩ := loadGrants_of_read granted
    unfold runCheck outcome
    rw [h, unread]
    rfl
  | documentMalformed loaded' granted read malformed =>
    obtain rfl := Except.ok.inj (loaded.symm.trans loaded')
    obtain ⟨grants, h⟩ := loadGrants_of_read granted
    unfold runCheck outcome check
    rw [h, read]
    simp only [malformed, bind, Except.bind, Except.mapError]
    rfl

theorem Stops.eq_settings {err : Settings.LoadError} (h : Stops files e i f)
    (unloaded : Settings.load files i.config e = .error err) : f = .settings err := by
  cases h with
  | settings failed => rw [Except.error.inj (unloaded.symm.trans failed)]
  | grantsUnread loaded => cases unloaded.symm.trans loaded
  | grantsMalformed loaded => cases unloaded.symm.trans loaded
  | operationUnread loaded => cases unloaded.symm.trans loaded
  | documentMalformed loaded => cases unloaded.symm.trans loaded

/-- At most one stage is the first to fail. -/
theorem Stops.unique {f' : Failure} (h : Stops files e i f) (h' : Stops files e i f') : f = f' := by
  cases loaded : Settings.load files i.config e with
  | error err => rw [h.eq_settings loaded, h'.eq_settings loaded]
  | ok s =>
    have same := (runCheck_of_stops {} loaded h).symm.trans (runCheck_of_stops {} loaded h')
    exact Except.error.inj (Prod.mk.inj same).2

/-- A run that no stage stops gets to its report. -/
theorem runCheck_of_not_stops (host : Host) (loaded : Settings.load files i.config e = .ok s)
    (h : ∀ f, ¬ Stops files e i f) :
    ∃ grants o, Completes files e i s grants o ∧ runCheck files i s host =
      ((wiring s (.ok grants)).map .log ++ o.events.map .log ++ (report host i o).map .text ++
        [.log (.checked o.isAllowed)], .ok o) := by
  unfold runCheck
  rcases loadGrants_cases files i s with
    ⟨path, fault, named, unread, _⟩ | ⟨path, text, cause, named, read, malformed, _⟩ |
    ⟨granted, grants, found⟩
  · exact absurd (.grantsUnread loaded named unread) (h _)
  · exact absurd (.grantsMalformed loaded named read malformed) (h _)
  · rw [found]
    unfold outcome
    cases read : files.readText i.operation with
    | error fault => exact absurd (.operationUnread loaded granted read) (h _)
    | ok text =>
      cases checked : check (s.authorizer grants).1 s text i.principal with
      | error cause =>
        exact absurd (.documentMalformed loaded granted read (check_error checked)) (h _)
      | ok o =>
        refine ⟨grants, o, ⟨loaded, found, text, read, checked⟩, ?_⟩
        simp only [Except.mapError, bind, Except.bind, checked]
        rfl

end Stops

/-- The settings are loaded first, then come the grants, then the operation. -/
def Failure.stage : Failure → Nat
  | .settings _ => 0
  | .grants _ => 1
  | .unreadable .. | .document _ => 2

/-- Two runs are given the same as far as the stage of a failure. What is logged is settled between the
first stage and the second. -/
structure SameUpTo (f : Failure) (files files' : Files) (e e' : Environment) (i i' : Invocation) :
    Prop where
  environment : Settings.ofEnvironment e = Settings.ofEnvironment e'
  config : i.config = i'.config
  settingsFile : ∀ path, i.config = some path → files path = files' path
  logging : 1 ≤ f.stage → i.logLevel = i'.logLevel ∧ e.get? "RUST_LOG" = e'.get? "RUST_LOG"
  grants : 1 ≤ f.stage → i.grants = i'.grants
  grantsFile : 1 ≤ f.stage → ∀ s path, Settings.load files i.config e = .ok s →
    grantsPath i s = some path → files path = files' path
  operation : 2 ≤ f.stage → i.operation = i'.operation ∧ files i.operation = files' i.operation

theorem readText_congr {files files' : Files} {path : String} (same : files path = files' path) :
    files.readText path = files'.readText path := by
  unfold Files.readText
  rw [same]

theorem ofFile_congr {files files' : Files} {path : String} (same : files path = files' path) :
    Settings.ofFile files path = Settings.ofFile files' path := by
  unfold Settings.ofFile Files.isFile
  rw [same, readText_congr same]

theorem load_congr {files files' : Files} {config : Option String} {e e' : Environment}
    (environment : Settings.ofEnvironment e = Settings.ofEnvironment e')
    (same : ∀ path, config = some path → files path = files' path) :
    Settings.load files config e = Settings.load files' config e' := by
  unfold Settings.load
  rw [environment]
  cases config with
  | none => rfl
  | some path => simp only [ofFile_congr (same path rfl)]

/-- What is read depends on the path and on the file that is there. -/
theorem loadGrants_congr {files files' : Files} {i i' : Invocation} {s s' : Settings}
    (named : grantsPath i s = grantsPath i' s')
    (same : ∀ path, grantsPath i s = some path → files path = files' path) :
    loadGrants files i s = loadGrants files' i' s' := by
  cases path : grantsPath i s with
  | none => rw [loadGrants_none path, loadGrants_none (named.symm.trans path)]
  | some path' =>
    have read := readText_congr (same path' path)
    rw [loadGrants_some path, loadGrants_some (named.symm.trans path), grantTable_load,
      grantTable_load, read]

section SameUpTo
variable {f : Failure} {files files' : Files} {e e' : Environment} {i i' : Invocation} {s : Settings}

theorem SameUpTo.load (same : SameUpTo f files files' e e' i i') :
    Settings.load files i.config e = Settings.load files' i'.config e' := by
  rw [← same.config]
  exact load_congr same.environment same.settingsFile

theorem SameUpTo.loadGrants (same : SameUpTo f files files' e e' i i') (past : 1 ≤ f.stage)
    (loaded : Settings.load files i.config e = .ok s) :
    loadGrants files i s = loadGrants files' i' s := by
  refine loadGrants_congr ?_ fun path named => same.grantsFile past s path loaded named
  unfold grantsPath
  rw [same.grants past]

theorem SameUpTo.grantsRead (same : SameUpTo f files files' e e' i i') (past : 1 ≤ f.stage)
    (loaded : Settings.load files i.config e = .ok s) (granted : GrantsRead files i s) :
    GrantsRead files' i' s := by
  intro path named
  have named' : grantsPath i s = some path := by
    unfold grantsPath
    rw [same.grants past]
    exact named
  obtain ⟨text, table, read, parsed⟩ := granted path named'
  rw [readText_congr (same.grantsFile past s path loaded named')] at read
  exact ⟨text, table, read, parsed⟩

theorem SameUpTo.readOperation (same : SameUpTo f files files' e e' i i') (past : 2 ≤ f.stage) :
    files.readText i.operation = files'.readText i'.operation := by
  obtain ⟨named, found⟩ := same.operation past
  rw [← named]
  exact readText_congr found

/-- A stage fails in the same way for whoever gives it and the stages before it the same. -/
theorem SameUpTo.stops (same : SameUpTo f files files' e e' i i') (h : Stops files e i f) :
    Stops files' e' i' f := by
  cases h with
  | settings failed => exact .settings (same.load.symm.trans failed)
  | grantsUnread loaded named unread =>
    have past : 1 ≤ 1 := Nat.le_refl 1
    refine .grantsUnread (same.load.symm.trans loaded) ?_ ?_
    · rw [← named, grantsPath, grantsPath, same.grants past]
    · rw [← readText_congr (same.grantsFile past _ _ loaded named)]
      exact unread
  | grantsMalformed loaded named read malformed =>
    have past : 1 ≤ 1 := Nat.le_refl 1
    refine .grantsMalformed (same.load.symm.trans loaded) ?_ ?_ malformed
    · rw [← named, grantsPath, grantsPath, same.grants past]
    · rw [← readText_congr (same.grantsFile past _ _ loaded named)]
      exact read
  | operationUnread loaded granted unread =>
    have granted' := same.grantsRead (Nat.le_succ 1) loaded granted
    have unread' := (same.readOperation (Nat.le_refl 2)).symm.trans unread
    rw [(same.operation (Nat.le_refl 2)).1]
    exact .operationUnread (same.load.symm.trans loaded) granted' unread'
  | documentMalformed loaded granted read malformed =>
    have granted' := same.grantsRead (Nat.le_succ 1) loaded granted
    have read' := (same.readOperation (Nat.le_refl 2)).symm.trans read
    exact .documentMalformed (same.load.symm.trans loaded) granted' read' malformed

end SameUpTo

end Command

end Clearance
