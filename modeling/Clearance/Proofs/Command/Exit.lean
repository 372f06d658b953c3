import Clearance.Proofs.Command.Telling
import Clearance.Proofs.Except

/-!
How a run ends, seen from outside: its exit code, its error and its output say the same about which
stage failed, if any, and about what was rejected and decided.
-/
namespace Clearance.Command

/-- What is printed that is no log line: rejections, the decision, counters. -/
def Item.text? : Item → Option String
  | .text s => some s
  | .log _ => none

def texts (output : List Item) : List String := output.filterMap Item.text?

/-- The filter of a run leaves log lines out and nothing else. -/
theorem texts_filter (filter : Event.Filter) (output : List Item) :
    texts (output.filter (·.isPrinted filter)) = texts output := by
  unfold texts
  rw [List.filterMap_filter]
  refine List.filterMap_congr fun item _ => ?_
  cases item with
  | text s => rfl
  | log event => exact ite_self none

theorem texts_append (output output' : List Item) :
    texts (output ++ output') = texts output ++ texts output' := List.filterMap_append

theorem texts_logs (events : List Event) : texts (events.map .log) = [] := by
  induction events with
  | nil => rfl
  | cons event events ih => exact ih

theorem texts_texts (lines : List String) : texts (lines.map .text) = lines := by
  induction lines with
  | nil => rfl
  | cons line lines ih => exact congrArg (line :: ·) ih

/-- Nothing is printed before the run comes to an end, and nothing without an outcome. -/
def printed (host : Host) (i : Invocation) : Except Failure Outcome → List String
  | .error _ => []
  | .ok o => report host i o

theorem texts_runCheck (host : Host) (files : Files) (i : Invocation) (s : Settings) :
    texts (runCheck files i s host).1 = printed host i (runCheck files i s host).2 := by
  unfold runCheck
  cases loadGrants files i s with
  | error f => rfl
  | ok grants =>
    simp only
    cases outcome files i s (s.authorizer grants).1 with
    | error f => exact texts_logs _
    | ok o =>
      rw [texts_append, texts_append, texts_append, texts_logs, texts_logs, texts_texts]
      exact List.append_nil _

section Ending
variable {host : Host} {files : Files} {e : Environment} {i : Invocation} {s : Settings} {f : Failure}

theorem run_check {arguments : List String} (parsed : parse arguments e = .ok (.check i)) :
    run arguments files e host = runInvocation files e i host := by
  unfold run
  rw [parsed]

theorem runInvocation_of_unloaded {err : Settings.LoadError}
    (unloaded : Settings.load files i.config e = .error err) :
    runInvocation files e i host =
      { errors := [failed (host.words files) (.settings err)], exit := 2 } := by
  unfold runInvocation
  rw [unloaded]

/-- The faults that a run tells, and the code it ends with. -/
def ending (words : String → String) : Except Failure Outcome → List String × Nat
  | .error f => ([failed words f], 2)
  | .ok o => ([], if o.isAllowed then 0 else 1)

theorem runInvocation_of_loaded (loaded : Settings.load files i.config e = .ok s)
    {items : List Item} {result : Except Failure Outcome}
    (h : runCheck files i s host = (items, result)) :
    runInvocation files e i host = {
      output := items.filter (·.isPrinted (chooseFilter e i s).1)
      format := s.telemetry.logFormat
      errors := (chooseFilter e i s).2.map ignored ++ (ending (host.words files) result).1
      exit := (ending (host.words files) result).2 } := by
  unfold runInvocation
  rw [loaded]
  simp only [h]
  cases result with
  | error f => rfl
  | ok o => simp [ending]

theorem run_of_loaded {arguments : List String} (parsed : parse arguments e = .ok (.check i))
    (loaded : Settings.load files i.config e = .ok s) :
    run arguments files e host = {
      output := (runCheck files i s host).1.filter (·.isPrinted (chooseFilter e i s).1)
      format := s.telemetry.logFormat
      errors := (chooseFilter e i s).2.map ignored ++
        (ending (host.words files) (runCheck files i s host).2).1
      exit := (ending (host.words files) (runCheck files i s host).2).2 } := by
  rw [run_check parsed]
  exact runInvocation_of_loaded loaded rfl

/-- The run of a failure: log lines, and the failure with its causes as the last of the errors. -/
structure Transcript.Fails (t : Transcript) (host : Host) (files : Files) (f : Failure) : Prop where
  exit : t.exit = 2
  error : ∃ (directives causes : List String), Tells host files f causes ∧
    t.errors = directives.map ignored ++ [errorLine causes]
  output : ∀ item ∈ t.output, ∃ event, item = .log event

/-- The run of an outcome: its report among log lines, no error, and the exit code of what was
rejected. -/
structure Transcript.Reports (t : Transcript) (host : Host) (i : Invocation) (o : Outcome) : Prop where
  exit : t.exit = if o.rejections = [] then 0 else 1
  errors : ∃ directives : List String, t.errors = directives.map ignored
  output : texts t.output = report host i o
  allowed : o.rejections = [] ↔
    o.decision = none ∨ ∃ decision, o.decision = some decision ∧ decision.allowed = true

theorem fails_of_stops (host : Host) (h : Stops files e i f) :
    (runInvocation files e i host).Fails host files f := by
  obtain ⟨causes, tells, told⟩ := tells_of_stops host h
  cases loaded : Settings.load files i.config e with
  | error err =>
    rw [h.eq_settings loaded] at tells told ⊢
    rw [runInvocation_of_unloaded loaded, told]
    exact ⟨rfl, ⟨[], causes, tells, rfl⟩, nofun⟩
  | ok s =>
    rw [runInvocation_of_loaded loaded (runCheck_of_stops host loaded h)]
    refine ⟨rfl, ⟨(chooseFilter e i s).2, causes, tells, ?_⟩, fun item mem => ?_⟩
    · rw [← told]
      rfl
    · obtain ⟨event, _, rfl⟩ := List.mem_map.1 (List.mem_of_mem_filter mem)
      exact ⟨event, rfl⟩

theorem reports_of_not_stops (host : Host) (h : ∀ f, ¬ Stops files e i f) :
    ∃ s grants o, Completes files e i s grants o ∧ (runInvocation files e i host).Reports host i o := by
  cases loaded : Settings.load files i.config e with
  | error err => exact absurd (.settings loaded) (h _)
  | ok s =>
    obtain ⟨grants, o, completes, ran⟩ := runCheck_of_not_stops host loaded h
    refine ⟨s, grants, o, completes, ?_⟩
    rw [runInvocation_of_loaded loaded ran]
    obtain ⟨-, -, text, -, checked⟩ := completes
    refine ⟨?_, ⟨_, List.append_nil _⟩, ?_, rejections_eq_nil_iff checked⟩
    · simp only [ending, Outcome.isAllowed, List.isEmpty_iff]
    · have printed := texts_runCheck host files i s
      rw [ran] at printed
      exact (texts_filter _ _).trans printed

/-- A run that ends with 0 or 1 has passed every stage. -/
theorem completes_of_answered {arguments : List String} (parsed : parse arguments e = .ok (.check i))
    (answered : (run arguments files e host).exit = 0 ∨ (run arguments files e host).exit = 1) :
    ∃ s grants o, Completes files e i s grants o ∧ (run arguments files e host).Reports host i o := by
  rw [run_check parsed] at answered ⊢
  refine reports_of_not_stops host fun f stops => ?_
  rw [(fails_of_stops host stops).exit] at answered
  omega

/-- Only the settings file has words of its own in what is told of a failure. -/
theorem failed_congr {files' : Files} {e' : Environment} {i' : Invocation} (host : Host)
    (h : Stops files e i f) (same : SameUpTo f files files' e e' i i') :
    failed (host.words files') f = failed (host.words files) f := by
  cases h with
  | @settings err unloaded =>
    cases err with
    | notToml path =>
      obtain ⟨config, -⟩ := Settings.notToml_of_load unloaded
      have words : host.words files' path = host.words files path := by
        unfold Host.words
        rw [same.settingsFile path config]
      rw [failed_notToml, failed_notToml, Settings.notTomlMessage, words]
      rfl
    | missing | invalid => rfl
  | grantsUnread | grantsMalformed | operationUnread | documentMalformed => rfl

/-- Two runs that are given the same up to the stage that fails do not differ at all. -/
theorem runInvocation_congr {files' : Files} {e' : Environment} {i' : Invocation} (host : Host)
    (h : Stops files e i f) (same : SameUpTo f files files' e e' i i') :
    runInvocation files' e' i' host = runInvocation files e i host := by
  have told := failed_congr host h same
  cases loaded : Settings.load files i.config e with
  | error err =>
    obtain rfl := h.eq_settings loaded
    rw [runInvocation_of_unloaded loaded, runInvocation_of_unloaded (same.load.symm.trans loaded), told]
  | ok s =>
    have past : 1 ≤ f.stage := by
      cases h with
      | settings failed => cases loaded.symm.trans failed
      | grantsUnread => exact Nat.le_refl 1
      | grantsMalformed => exact Nat.le_refl 1
      | operationUnread => exact Nat.le_succ 1
      | documentMalformed => exact Nat.le_succ 1
    have loaded' := same.load.symm.trans loaded
    have filter : chooseFilter e i s = chooseFilter e' i' s := by
      obtain ⟨option, rust⟩ := same.logging past
      unfold chooseFilter
      rw [option, rust]
    rw [runInvocation_of_loaded loaded (runCheck_of_stops host loaded h),
      runInvocation_of_loaded loaded' (runCheck_of_stops host loaded' (same.stops h)),
      same.loadGrants past loaded, filter, ending, ending, told]

end Ending

/-- A run ends with 2 exactly if a stage fails: the settings, reading and decoding the grants, also where
authorization is disabled, reading the operation or decoding it. The first such failure is the one that
is told, in words that are those of no other stage and no other file, nothing but log lines is printed,
and it makes no difference what the later stages would have been given. All other runs print the report
of their outcome and end with 0 or 1, with 0 exactly if nothing was rejected, that is, if there is no
decision or one that allows the operation. -/
theorem exit_run (host : Host) (arguments : List String) (files : Files) (e : Environment)
    (i : Invocation) (parsed : parse arguments e = .ok (.check i)) :
    ((run arguments files e host).exit = 2 ↔ ∃ f, Stops files e i f) ∧
    (∀ f, Stops files e i f → (∀ f', Stops files e i f' → f' = f) ∧
      (run arguments files e host).Fails host files f ∧
      (∀ host' arguments' files' e' i' f', parse arguments' e' = .ok (.check i') →
        Stops files' e' i' f' →
        (run arguments' files' e' host').errors.getLast? = (run arguments files e host).errors.getLast? →
        f'.Alike f) ∧
      ∀ arguments' files' e' i', parse arguments' e' = .ok (.check i') →
        SameUpTo f files files' e e' i i' →
        run arguments' files' e' host = run arguments files e host) ∧
    ((∀ f, ¬ Stops files e i f) →
      ∃ s grants o, Completes files e i s grants o ∧
        (run arguments files e host).Reports host i o) := by
  rw [run_check parsed]
  refine ⟨⟨?_, ?_⟩, ?_, reports_of_not_stops host⟩
  · intro ended
    by_contra none
    obtain ⟨s, grants, o, -, reports⟩ := reports_of_not_stops host fun f h => none ⟨f, h⟩
    have code := reports.exit
    rw [ended] at code
    split at code <;> cases code
  · rintro ⟨f, h⟩
    exact (fails_of_stops host h).exit
  · intro f h
    refine ⟨fun f' h' => h'.unique h, fails_of_stops host h, ?_, ?_⟩
    · intro host' arguments' files' e' i' f' parsed' h' same
      rw [run_check parsed'] at same
      obtain ⟨_, causes, tells, told⟩ := (fails_of_stops host h).error
      obtain ⟨_, causes', tells', told'⟩ := (fails_of_stops host' h').error
      rw [told, told', List.getLast?_concat, List.getLast?_concat] at same
      exact tells'.alike tells (Option.some.inj same)
    · intro arguments' files' e' i' parsed' same
      rw [run_check parsed']
      exact runInvocation_congr host h same

/-- Neither the grants nor the operation can be read, and authorization is disabled. The grants are what
is told, and with other arguments for what comes after them it is told just so. -/
theorem exit_run_disabled :
    let e : Environment := ⟨[("OPSGUARD_AUTHORIZATION__ENABLED", "false")]⟩
    let files : Files := fun _ => .error .missing
    let arguments := ["check", "--operation", "a.json", "--grants=none.json", "--json"]
    let arguments' := ["check", "--grants", "none.json", "--operation=b.json", "--principal", "eve"]
    (run arguments files e).exit = 2 ∧
      (run arguments files e).errors.getLast? =
        some "error: reading grant table none.json: No such file or directory (os error 2)" ∧
      run arguments' files e = run arguments files e := by
  intro e files arguments arguments'
  let i : Invocation := { operation := "a.json", grants := some "none.json", json := true }
  let i' : Invocation :=
    { operation := "b.json", grants := some "none.json", principal := some "eve" }
  have parsed : parse arguments e = .ok (.check i) := eq_ok_of_toOption (by decide +kernel)
  have parsed' : parse arguments' e = .ok (.check i') := eq_ok_of_toOption (by decide +kernel)
  let s : Settings := { authorization := { enabled := false } }
  have loaded : Settings.load files i.config e = .ok s := by rfl
  have named : grantsPath i s = some "none.json" := rfl
  have unread : files.readText "none.json" = .error .missing := rfl
  have stops : Stops files e i (.grants (.unreadable "none.json" .missing)) :=
    .grantsUnread loaded named unread
  obtain ⟨-, fails, -, same⟩ := (exit_run {} arguments files e i parsed).2.1 _ stops
  obtain ⟨_, causes, tells, told⟩ := fails.error
  refine ⟨fails.exit, ?_, same arguments' files e i' parsed' ?_⟩
  · cases tells
    rw [told, List.getLast?_concat]
    rfl
  · exact ⟨rfl, rfl, nofun, fun _ => ⟨rfl, rfl⟩, fun _ => rfl, fun _ _ _ _ _ => rfl, nofun⟩

end Clearance.Command
