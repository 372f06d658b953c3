import Clearance.Proofs.Command.Lines
import Clearance.Proofs.Event.Level
import Clearance.Proofs.Event.Line

/-!
What a run logs. Events come from the wiring of the authorizer, then from the evaluation, then from the
end of the run, and of these the filter leaves out some.
-/
namespace Clearance

open Authorizer Event

theorem Authorizer.events_evaluate? (a : Authorizer) (o : Option Operation)
    (identity : Option Identity) (p : Policy) :
    ((a.evaluate? o identity p).map (·.events)).getD [] =
      ((a.evaluate o identity p).run {}).2.events := by
  obtain ⟨backend⟩ := a
  cases backend with
  | none => rfl
  | some b => cases o <;> rfl

namespace Command

/-- The environment gives no filter that is well formed. -/
def LacksFilter (e : Environment) : Prop :=
  ∀ given, e.get? "RUST_LOG" = some given → Event.Filter.parse? given = none

/-- The filter of a run, and the text that it is read from. The variable counts if all of it is well
formed, then the option does, then the setting. -/
inductive Selects (e : Environment) (i : Invocation) (s : Settings) : Event.Filter → String → Prop where
  | environment {f : Event.Filter} {text : String} : e.get? "RUST_LOG" = some text →
    Event.Filter.parse? text = some f → Selects e i s f text
  | option {text : String} : LacksFilter e → i.logLevel = some text →
    Selects e i s (Event.Filter.parseLossy text).1 text
  | setting : LacksFilter e → i.logLevel = none →
    Selects e i s (Event.Filter.parseLossy s.telemetry.logLevel).1 s.telemetry.logLevel

/-- Where the text of a level is taken from. -/
inductive Configures (e : Environment) (i : Invocation) (s : Settings) : String → Prop where
  | environment {text : String} : e.get? "RUST_LOG" = some text → Configures e i s text
  | option {text : String} : LacksFilter e → i.logLevel = some text → Configures e i s text
  | setting : LacksFilter e → i.logLevel = none → Configures e i s s.telemetry.logLevel

/-- What an authorizer logs of the operation, if that is read and parsed. -/
def evaluated (files : Files) (i : Invocation) (s : Settings) (a : Authorizer) : List Event :=
  match files.readText i.operation with
  | .error _ => []
  | .ok text =>
    match Document.parse text with
    | .error _ => []
    | .ok d =>
      ((a.evaluate (some d.operation) (some (caller i.principal)) s.security).run {}).2.events

/-- The events of a run up to its end. Without the grants there is no authorizer. -/
def emitted (files : Files) (i : Invocation) (s : Settings) : List Event :=
  match loadGrants files i s with
  | .error _ => []
  | .ok grants => (s.authorizer grants).2 ++ evaluated files i s (s.authorizer grants).1

/-- The last event, if there is an answer. -/
def concluded (exit : Nat) : List Event := if exit = 0 ∨ exit = 1 then [.checked (exit = 0)] else []

def logged (output : List Item) : List Event :=
  output.filterMap fun
    | .text _ => none
    | .log event => some event

/-- The log lines of a run as they are printed, each at a time of its own. -/
def Transcript.logs (t : Transcript) (clock : Nat → String) : List String :=
  (logged t.output).mapIdx fun n event => (Item.log event).print t.format (clock n)

/-- A line that tells an event, at whatever time. -/
def LineOf (event : Event) (line : String) : Prop := ∃ time, line = logLine time event

theorem logged_filter (f : Event.Filter) (output : List Item) :
    logged (output.filter (·.isPrinted f)) = (logged output).filter f.admits := by
  induction output with
  | nil => rfl
  | cons item output ih =>
    cases item with
    | text t => simpa [logged, Item.isPrinted] using ih
    | log event =>
      cases admitted : f.admits event <;> simpa [logged, Item.isPrinted, admitted] using ih

theorem logs_of_json {t : Transcript} (json : t.format = .json) (clock : Nat → String) :
    t.logs clock = (logged t.output).mapIdx fun n event => logLine (clock n) event := by
  unfold Transcript.logs
  rw [json]
  rfl

theorem lineOf_mapIdx (events : List Event) (clock : Nat → String) :
    List.Forall₂ LineOf events (events.mapIdx fun n event => logLine (clock n) event) := by
  induction events generalizing clock with
  | nil => exact .nil
  | cons event events ih =>
    rw [List.mapIdx_cons]
    exact .cons ⟨clock 0, rfl⟩ (ih fun n => clock (n + 1))

/-- The lines for debugging are those of the events for debugging. -/
theorem filter_isDebugLine [DecidablePred IsDebugLine] {events : List Event} {lines : List String}
    (told : List.Forall₂ LineOf events lines) :
    List.Forall₂ LineOf (events.filter (·.severity == .debug)) (lines.filter (IsDebugLine ·)) := by
  refine List.rel_filter (fun event line tells => ?_) told
  obtain ⟨time, rfl⟩ := tells
  simp only [beq_iff_eq, decide_eq_true_iff, isDebugLine_logLine]

theorem logged_append (output output' : List Item) :
    logged (output ++ output') = logged output ++ logged output' := List.filterMap_append

theorem logged_logs (events : List Event) : logged (events.map .log) = events := by
  induction events with
  | nil => rfl
  | cons event events ih => exact congrArg (event :: ·) ih

theorem logged_texts (texts : List String) : logged (texts.map .text) = [] := by
  induction texts with
  | nil => rfl
  | cons text texts ih => exact ih

theorem concluded_outcome (o : Outcome) :
    concluded (if o.isAllowed then 0 else 1) = [.checked o.isAllowed] := by
  cases o.isAllowed <;> rfl

section Emitted
variable {host : Host} {files : Files} {e : Environment} {i : Invocation} {s : Settings}

theorem evaluated_eq (a : Authorizer) :
    evaluated files i s a = ((outcome files i s a).toOption.map Outcome.events).getD [] := by
  unfold evaluated outcome check
  cases files.readText i.operation with
  | error fault => rfl
  | ok text =>
    simp only [Except.mapError, bind, Except.bind]
    cases Document.parse text with
    | error cause => rfl
    | ok d => exact (a.events_evaluate? (some d.operation) (some (caller i.principal)) s.security).symm

theorem logged_runCheck (host : Host) (files : Files) (i : Invocation) (s : Settings) :
    logged (runCheck files i s host).1 =
      emitted files i s ++ concluded (ending (host.words files) (runCheck files i s host).2).2 := by
  unfold runCheck emitted
  cases loadGrants files i s with
  | error f => rfl
  | ok grants =>
    simp only [evaluated_eq]
    cases outcome files i s (s.authorizer grants).1 with
    | error f => exact (logged_logs _).trans (by simp [Except.toOption, concluded, ending])
    | ok o =>
      rw [logged_append, logged_append, logged_append, logged_logs, logged_logs, logged_texts]
      simp [Except.toOption, ending, concluded_outcome, logged]

theorem selects_chooseFilter (e : Environment) (i : Invocation) (s : Settings) :
    ∃ text, Selects e i s (chooseFilter e i s).1 text := by
  unfold chooseFilter
  cases given : (e.get? "RUST_LOG").bind Event.Filter.parse? with
  | some f =>
    obtain ⟨text, set, read⟩ := Option.bind_eq_some_iff.1 given
    exact ⟨text, .environment set read⟩
  | none =>
    have lacks : LacksFilter e := Option.bind_eq_none_iff.1 given
    cases told : i.logLevel with
    | some text => exact ⟨text, .option lacks told⟩
    | none => exact ⟨_, .setting lacks told⟩

theorem chooseFilter_of_lacksFilter (lacks : LacksFilter e) :
    chooseFilter e i s = Event.Filter.parseLossy (i.logLevel.getD s.telemetry.logLevel) := by
  have absent : (e.get? "RUST_LOG").bind Event.Filter.parse? = none := Option.bind_eq_none_iff.2 lacks
  unfold chooseFilter
  rw [absent]

theorem Selects.eq_chooseFilter {f : Event.Filter} {text : String} (h : Selects e i s f text) :
    f = (chooseFilter e i s).1 := by
  cases h with
  | environment set read =>
    unfold chooseFilter
    rw [set, Option.bind_some, read]
  | option lacks told => rw [chooseFilter_of_lacksFilter lacks, told, Option.getD_some]
  | setting lacks told => rw [chooseFilter_of_lacksFilter lacks, told, Option.getD_none]

theorem logged_run {arguments : List String} (parsed : parse arguments e = .ok (.check i))
    (loaded : Settings.load files i.config e = .ok s) {f : Event.Filter} {text : String}
    (selects : Selects e i s f text) :
    logged (run arguments files e host).output =
      (emitted files i s ++ concluded (run arguments files e host).exit).filter f.admits := by
  rw [run_of_loaded parsed loaded, logged_filter, logged_runCheck, selects.eq_chooseFilter]

/-- A level by itself is the filter, wherever it was given. -/
theorem Configures.selects {text : String} {t : Threshold} (given : Configures e i s text)
    (level : IsLevel text t) : Selects e i s (.upTo t) text := by
  have lossy : (Event.Filter.parseLossy text).1 = .upTo t :=
    congrArg Prod.fst (Event.Filter.parseLossy_of_isLevel level)
  cases given with
  | environment set => exact .environment set (Event.Filter.parse?_of_isLevel level)
  | option lacks told => exact lossy ▸ .option lacks told
  | setting lacks untold => exact lossy ▸ .setting lacks untold

theorem admits_upTo_eq (t : Threshold) :
    (Event.Filter.upTo t).admits = fun event => decide (event.severity.rank ≤ t.rank) := by
  funext event
  rw [Event.Filter.admits_upTo, Bool.eq_iff_iff, t.admits_iff, decide_eq_true_iff]

theorem logged_run_of_level {arguments : List String} (parsed : parse arguments e = .ok (.check i))
    (loaded : Settings.load files i.config e = .ok s) {text : String} {t : Threshold}
    (given : Configures e i s text) (level : IsLevel text t) :
    logged (run arguments files e host).output =
      (emitted files i s ++ concluded (run arguments files e host).exit).filter
        fun event => event.severity.rank ≤ t.rank := by
  rw [logged_run parsed loaded (given.selects level), admits_upTo_eq]

theorem severity_wiring (s : Settings) (grants : Option GrantTable) :
    ∀ event ∈ (s.authorizer grants).2, event.severity = .warn := by
  unfold Settings.authorizer
  cases s.authorization.enabled <;> cases grants <;> simp [Event.severity]

/-- Every denial is logged for debugging, and nothing else is. -/
theorem debug_emitted {grants : Option GrantTable} {o : Outcome}
    (completes : Completes files e i s grants o) (exit : Nat) :
    ∃ type denied, Denies o denied ∧
      (emitted files i s ++ concluded exit).filter (·.severity == .debug) =
        denied.map fun subject => deniedEvent type subject.1 subject.2 := by
  obtain ⟨-, granted, text, read, checked⟩ := completes
  obtain ⟨type, denied, rejected, events⟩ := denials_of_check checked
  have found : outcome files i s (s.authorizer grants).1 = .ok o := by
    simp [outcome, read, checked, bind, Except.bind, Except.mapError]
  have wired : (s.authorizer grants).2.filter (·.severity == .debug) = [] :=
    filter_debug_eq_nil (severity_wiring s grants) (by decide)
  have last : (concluded exit).filter (·.severity == .debug) = [] := by
    unfold concluded
    split <;> rfl
  refine ⟨type, denied, rejected, ?_⟩
  unfold emitted
  rw [granted]
  simp only [List.filter_append, wired, last, evaluated_eq, found, Except.toOption, Option.map_some,
    Option.getD_some, events, List.nil_append, List.append_nil]

theorem emitted_congr {files' : Files} {i' : Invocation} {s' : Settings} (query : SameQuery i i')
    (same : s.SameButLogLevel s') (operation : files i.operation = files' i.operation)
    (grants : ∀ path, grantsPath i s = some path → files path = files' path) :
    emitted files i s = emitted files' i' s' := by
  unfold emitted
  rw [query.loadGrants same.authorization grants]
  simp only [evaluated_eq, Settings.authorizer_congr same.authorization,
    query.outcome same.security operation]

end Emitted

section Levels
variable {host host' : Host} {arguments arguments' : List String} {files files' : Files}
  {e e' : Environment} {i i' : Invocation} {s s' : Settings} {text text' : String} {t t' : Threshold}
  (parsed : parse arguments e = .ok (.check i)) (loaded : Settings.load files i.config e = .ok s)
  (given : Configures e i s text) (level : IsLevel text t)
include parsed loaded given level

theorem debug_logged (debug : Severity.debug.rank ≤ t.rank)
    (answered : (run arguments files e host).exit = 0 ∨ (run arguments files e host).exit = 1) :
    ∃ grants o type denied, Completes files e i s grants o ∧ Denies o denied ∧
      (logged (run arguments files e host).output).filter (·.severity == .debug) =
        denied.map fun subject => deniedEvent type subject.1 subject.2 := by
  obtain ⟨s', grants, o, completes, -⟩ := completes_of_answered parsed answered
  obtain rfl := Except.ok.inj (loaded.symm.trans completes.1)
  obtain ⟨type, denied, denies, events⟩ := debug_emitted completes (run arguments files e host).exit
  refine ⟨grants, o, type, denied, completes, denies, ?_⟩
  have admitted (event : Event) :
      (event.severity == .debug && decide (event.severity.rank ≤ t.rank)) =
        (event.severity == .debug) := by
    by_cases fault : event.severity = .debug <;> simp [fault, debug]
  rw [logged_run_of_level parsed loaded given level, List.filter_filter]
  simp only [admitted, events]

theorem logged_sublist (parsed' : parse arguments' e' = .ok (.check i')) (query : SameQuery i i')
    (loaded' : Settings.load files' i'.config e' = .ok s') (same : s.SameButLogLevel s')
    (operation : files i.operation = files' i.operation)
    (grants : ∀ path, grantsPath i s = some path → files path = files' path)
    (given' : Configures e' i' s' text') (level' : IsLevel text' t') (wider : t.rank ≤ t'.rank) :
    (logged (run arguments files e host).output).Sublist
      (logged (run arguments' files' e' host').output) := by
  have exits : (run arguments files e host).exit = (run arguments' files' e' host').exit := by
    rw [run_of_loaded parsed loaded, run_of_loaded parsed' loaded',
      query.result same host host' operation grants]
    cases (runCheck files' i' s' host').2 <;> rfl
  rw [logged_run_of_level parsed loaded given level, logged_run_of_level parsed' loaded' given' level',
    emitted_congr query same operation grants, exits]
  refine List.monotone_filter_right _ fun event passes => ?_
  rw [decide_eq_true_iff] at passes ⊢
  exact Nat.le_trans passes wider

end Levels

open Classical in
/-- The log lines of a run that gets to its settings are those of its events that the filter admits: what
is told about the wiring unless the grants fail, what the evaluation logs if the operation is read and
parsed, and at the end whether it is allowed if there is an answer. A line tells the time and all there
is to tell of its event. A level by itself is honoured wherever it is given, in `RUST_LOG` before the
option and in the option before the setting, and lets through what is as grave. Where that includes
debugging, there is a line of this kind for each rejection of an answer, and no other; and of two runs
that are asked the same, the one with the wider level logs all that the other does, in the same order. -/
theorem logging_run (host : Host) (arguments : List String) (files : Files) (e : Environment)
    (i : Invocation) (s : Settings) (parsed : parse arguments e = .ok (.check i))
    (loaded : Settings.load files i.config e = .ok s) (json : s.telemetry.logFormat = .json) :
    let t := run arguments files e host
    let events := emitted files i s ++ concluded t.exit
    (∃ f text, Selects e i s f text) ∧
    (∀ f text, Selects e i s f text → logged t.output = events.filter f.admits) ∧
    (∀ clock, t.logs clock = (logged t.output).mapIdx fun n event => logLine (clock n) event) ∧
    (∀ time event, Json.Denotes (logLine time event) (event.datum time)) ∧
    (∀ time time' event event', logLine time event = logLine time' event' →
      time = time' ∧ event = event') ∧
    ∀ text level, Configures e i s text → IsLevel text level →
      logged t.output = events.filter (fun event => event.severity.rank ≤ level.rank) ∧
      (Severity.debug.rank ≤ level.rank → t.exit = 0 ∨ t.exit = 1 →
        ∃ grants o type denied, Completes files e i s grants o ∧ Denies o denied ∧
          let told := denied.map fun subject => deniedEvent type subject.1 subject.2
          (logged t.output).filter (·.severity == .debug) = told ∧
            ∀ clock, List.Forall₂ LineOf told ((t.logs clock).filter (IsDebugLine ·))) ∧
      ∀ host' arguments' files' e' i' s' text' level', parse arguments' e' = .ok (.check i') →
        SameQuery i i' → Settings.load files' i'.config e' = .ok s' → s.SameButLogLevel s' →
        files i.operation = files' i.operation →
        (∀ path, grantsPath i s = some path → files path = files' path) →
        Configures e' i' s' text' → IsLevel text' level' → level.rank ≤ level'.rank →
        (logged t.output).Sublist (logged (run arguments' files' e' host').output) := by
  intro t events
  have format : t.format = .json := by
    rw [← json]
    exact congrArg Transcript.format (run_of_loaded parsed loaded)
  have lines := logs_of_json format
  refine ⟨⟨_, selects_chooseFilter e i s⟩, fun f text => logged_run parsed loaded, lines,
    denotes_logLine, fun _ _ _ _ => logLine_inj, fun text level given isLevel => ⟨?_, ?_, ?_⟩⟩
  · exact logged_run_of_level parsed loaded given isLevel
  · intro debug answered
    obtain ⟨grants, o, type, denied, completes, denies, told⟩ :=
      debug_logged parsed loaded given isLevel debug answered
    refine ⟨grants, o, type, denied, completes, denies, told, fun clock => ?_⟩
    rw [← told, lines]
    exact filter_isDebugLine (lineOf_mapIdx _ clock)
  · intro host' arguments' files' e' i' s' text' level' parsed' query loaded' same operation grants
      given' isLevel' wider
    exact logged_sublist parsed loaded given isLevel parsed' query loaded' same operation grants given'
      isLevel' wider

open Classical in
/-- The account and the application are denied, which only the run for debugging logs. -/
theorem logging_run_debug :
    let files : Files :=
      fun _ => .ok "\x7b\"type\":\"t\",\"account\":\"a\",\"applications\":[\"b\"]\x7d".toUTF8
    let arguments := ["--log-level", "Warn", "check", "--operation", "a.json"]
    let debug : Environment := ⟨[("RUST_LOG", "debug")]⟩
    let quiet := run arguments files ⟨[]⟩
    let noisy := run arguments files debug
    logged quiet.output = [.noGrants] ∧ noisy.exit = 1 ∧
      logged noisy.output =
        [.noGrants, .accountDenied "t" "a", .applicationDenied "t" "b", .checked false] ∧
      (logged quiet.output).Sublist (logged noisy.output) ∧
      (∀ clock, List.Forall₂ LineOf [.accountDenied "t" "a", .applicationDenied "t" "b"]
        ((noisy.logs clock).filter (IsDebugLine ·))) ∧
      ["\x7b\"timestamp\":\"1\",\"level\":\"DEBUG\",\"fields\":\x7b" ++
          "\"message\":\"account access denied\",\"description_type\":\"t\",\"account\":\"a\"\x7d\x7d\n",
        "\x7b\"timestamp\":\"2\",\"level\":\"DEBUG\",\"fields\":\x7b" ++
          "\"message\":\"application access denied\",\"description_type\":\"t\"," ++
          "\"application\":\"b\"\x7d\x7d\n"] <:+: noisy.logs toString := by
  intro files arguments debug quiet noisy
  let i : Invocation := { operation := "a.json", logLevel := some "Warn" }
  have parsed : parse arguments ⟨[]⟩ = .ok (.check i) := eq_ok_of_toOption (by decide +kernel)
  have parsed' : parse arguments debug = .ok (.check i) := eq_ok_of_toOption (by decide +kernel)
  have loaded : Settings.load files i.config ⟨[]⟩ = .ok {} := by rfl
  have loaded' : Settings.load files i.config debug = .ok {} := by rfl
  have warn : IsLevel "Warn" (some .warn) := .name (Text.raisedTo_iff.2 (by decide +kernel))
  have level : IsLevel "debug" (some .debug) := .name (Text.raisedTo_iff.2 (by decide +kernel))
  have told : Configures ⟨[]⟩ i {} "Warn" := .option nofun rfl
  have set : Configures debug i {} "debug" := .environment rfl
  have answered : noisy.exit = 1 := by decide +kernel
  have events : logged noisy.output =
      [.noGrants, .accountDenied "t" "a", .applicationDenied "t" "b", .checked false] := by
    decide +kernel
  obtain ⟨-, -, -, -, -, narrow⟩ := logging_run {} arguments files ⟨[]⟩ i {} parsed loaded rfl
  obtain ⟨-, -, -, -, -, wide⟩ := logging_run {} arguments files debug i {} parsed' loaded' rfl
  obtain ⟨-, -, shorter⟩ := narrow _ _ told warn
  refine ⟨by decide +kernel, answered, events, ?_, fun clock => ?_, by decide +kernel⟩
  · exact shorter _ _ _ _ _ _ _ _ parsed' ⟨rfl, rfl, rfl, rfl⟩ loaded' ⟨rfl, rfl, rfl⟩ rfl
      (fun _ _ => rfl) set level (by decide)
  · obtain ⟨-, debugged, -⟩ := wide _ _ set level
    obtain ⟨-, -, type, denied, -, -, told, lines⟩ := debugged (by decide) (.inr answered)
    rw [← told, events] at lines
    exact lines clock

end Command
end Clearance
