import Clearance.Proofs.Command.Report
import Clearance.Proofs.Settings.Likeness

/-!
What is observed of a run does not change what it comes to. Runs that are given the same, but for what
is logged and for what is printed after the rejections, end with the same code, and whatever both of
them print is the same.
-/
namespace Clearance

theorem Settings.authorizer_congr {s s' : Settings} (same : s.authorization = s'.authorization)
    (grants : Option GrantTable) : s.authorizer grants = s'.authorizer grants := by
  unfold authorizer
  rw [same]

theorem check_congr {s s' : Settings} (same : s.security = s'.security) (a : Authorizer)
    (text : String) (principal : Option String) :
    check a s text principal = check a s' text principal := by
  unfold check
  rw [same]

namespace Command

/-- The same file and the same settings in the environment are alike, whatever else is in it. -/
theorem sourcesAlike_of_same {files files' : Files} {config : Option String} {e e' : Environment}
    (environment : Settings.ofEnvironment e = Settings.ofEnvironment e')
    (same : ∀ path, config = some path → files path = files' path) :
    Settings.SourcesAlike files files' config e e' := by
  have given : Settings.givenBy files config e = Settings.givenBy files' config e' := by
    unfold Settings.givenBy
    rw [environment]
    cases config with
    | none => rfl
    | some path => simp only [ofFile_congr (same path rfl)]
  unfold Settings.SourcesAlike
  rw [given]
  exact .refl (fun t => ⟨fun _ _ => rfl, .same _⟩) _

/-- `RUST_LOG` is no setting. -/
theorem sourcesAlike_set (files : Files) (config : Option String) (e : Environment) (filter : String) :
    Settings.SourcesAlike files files config e (e.set "RUST_LOG" filter) :=
  sourcesAlike_of_same (Settings.ofEnvironment_set (by decide +kernel) e filter).symm fun _ _ => rfl

/-- What a run comes to, whatever it prints. -/
theorem runCheck_result (host : Host) (files : Files) (i : Invocation) (s : Settings) :
    (runCheck files i s host).2 =
      (loadGrants files i s).bind fun grants => outcome files i s (s.authorizer grants).1 := by
  unfold runCheck
  cases loadGrants files i s with
  | error f => rfl
  | ok grants =>
    simp only [Except.bind]
    cases outcome files i s (s.authorizer grants).1 <;> rfl

theorem result_of_completes {host : Host} {files : Files} {e : Environment} {i : Invocation}
    {s : Settings} {grants : Option GrantTable} {o : Outcome} (h : Completes files e i s grants o) :
    (runCheck files i s host).2 = .ok o := by
  obtain ⟨-, granted, text, read, checked⟩ := h
  rw [runCheck_result, granted]
  simp [Except.bind, outcome, read, checked, bind, Except.mapError]

/-- The same is asked of two runs, apart from what is logged and what is printed. -/
structure SameQuery (i i' : Invocation) : Prop where
  config : i.config = i'.config
  operation : i.operation = i'.operation
  grants : i.grants = i'.grants
  principal : i.principal = i'.principal

section SameQuery
variable {files files' : Files} {i i' : Invocation} {s s' : Settings}

theorem SameQuery.loadGrants (query : SameQuery i i') (same : s.authorization = s'.authorization)
    (files_same : ∀ path, grantsPath i s = some path → files path = files' path) :
    loadGrants files i s = loadGrants files' i' s' := by
  refine loadGrants_congr ?_ files_same
  unfold grantsPath
  rw [query.grants, same]

theorem SameQuery.outcome (query : SameQuery i i') (same : s.security = s'.security)
    (operation : files i.operation = files' i.operation) (a : Authorizer) :
    outcome files i s a = outcome files' i' s' a := by
  unfold Command.outcome
  rw [readText_congr operation, query.operation, query.principal]
  simp only [check_congr same]

theorem SameQuery.result (query : SameQuery i i') (same : s.SameButLogLevel s') (host host' : Host)
    (operation : files i.operation = files' i.operation)
    (grants : ∀ path, grantsPath i s = some path → files path = files' path) :
    (runCheck files i s host).2 = (runCheck files' i' s' host').2 := by
  rw [runCheck_result, runCheck_result, query.loadGrants same.authorization grants]
  congr 1
  funext table
  rw [Settings.authorizer_congr same.authorization, query.outcome same.security operation]

end SameQuery

theorem completes_of_result {host : Host} {files : Files} {e : Environment} {i : Invocation}
    {s : Settings} {o : Outcome} (loaded : Settings.load files i.config e = .ok s)
    (result : (runCheck files i s host).2 = .ok o) : ∃ grants, Completes files e i s grants o := by
  by_cases stops : ∃ f, Stops files e i f
  · obtain ⟨f, h⟩ := stops
    rw [runCheck_of_stops host loaded h] at result
    cases result
  · obtain ⟨grants, o', completes, ran⟩ := runCheck_of_not_stops host loaded (not_exists.1 stops)
    rw [ran] at result
    obtain rfl := Except.ok.inj result
    exact ⟨grants, completes⟩

/-- The log level, wherever it comes from, and the options for printing more do not change the exit code
and the rejections. What is asked for in addition comes after these, and is the same in every run that
asks for it: the text of the decision, and the blocks of the counters, whose order alone is up to what
lets them out. -/
theorem observation_run (host host' : Host) (arguments arguments' : List String)
    (files files' : Files) (e e' : Environment) (i i' : Invocation)
    (parsed : parse arguments e = .ok (.check i)) (parsed' : parse arguments' e' = .ok (.check i'))
    (query : SameQuery i i') (settings : Settings.SourcesAlike files files' i.config e e')
    (operation : files i.operation = files' i.operation)
    (grants : ∀ s path, Settings.load files i.config e = .ok s → grantsPath i s = some path →
      files path = files' path) :
    (run arguments files e host).exit = (run arguments' files' e' host').exit ∧
      ((run arguments files e host).exit = 2 → texts (run arguments files e host).output = [] ∧
        texts (run arguments' files' e' host').output = []) ∧
      ((run arguments files e host).exit ≠ 2 → ∃ s s' grants o decision blocks,
        Completes files e i s grants o ∧ Completes files' e' i' s' grants o ∧
        DecisionText o.decision decision ∧
        Counter.Blocks (({} : Counter.Registry).apply o.increments) blocks ∧
        texts (run arguments files e host).output =
          reportTexts i o decision (host.drain.order blocks) ∧
        texts (run arguments' files' e' host').output =
          reportTexts i' o decision (host'.drain.order blocks)) := by
  rw [run_check parsed, run_check parsed']
  have loads := Settings.load_alike settings
  generalize loaded : Settings.load files i.config e = r at loads
  generalize loaded' : Settings.load files' i.config e' = r' at loads
  rw [query.config] at loaded'
  cases loads with
  | error err err' =>
    rw [runInvocation_of_unloaded loaded, runInvocation_of_unloaded loaded']
    exact ⟨rfl, fun _ => ⟨rfl, rfl⟩, fun answered => absurd rfl answered⟩
  | @ok s s' same =>
    have tables := query.loadGrants same.authorization fun path => grants s path loaded
    have result := query.result same host host' operation fun path => grants s path loaded
    have ran := runInvocation_of_loaded loaded (Prod.mk.eta (p := runCheck files i s host)).symm
    have ran' := runInvocation_of_loaded loaded' (Prod.mk.eta (p := runCheck files' i' s' host')).symm
    rw [ran, ran', texts_filter, texts_filter, texts_runCheck, texts_runCheck, result]
    cases ended : (runCheck files' i' s' host').2 with
    | error f =>
      exact ⟨rfl, fun _ => ⟨rfl, rfl⟩, fun answered => absurd rfl answered⟩
    | ok o =>
      obtain ⟨table, completes⟩ := completes_of_result loaded (result.trans ended)
      obtain ⟨table', completes'⟩ := completes_of_result loaded' ended
      obtain rfl := Except.ok.inj ((completes.2.1.symm.trans tables).trans completes'.2.1)
      obtain ⟨text, -, checked⟩ := completes.2.2
      obtain ⟨decision, blocks, denotes, counters, printed⟩ := report_of_check checked
      refine ⟨rfl, fun coded => ?_, fun _ => ?_⟩
      · simp only [ending] at coded
        split at coded <;> cases coded
      · exact ⟨s, s', table, o, decision, blocks, completes, completes', denotes, counters,
          printed host i, printed host' i'⟩

/-- The first run takes its log level from a setting, the second from an option, with `RUST_LOG` set to
another, and lets counters out the other way round. The account is denied all the same. -/
theorem observation_run_denied :
    let files : Files := fun _ => .ok "\x7b\"type\":\"t\",\"account\":\"a\"\x7d".toUTF8
    let set : Environment := ⟨[("OPSGUARD_TELEMETRY__LOG_LEVEL", "debug")]⟩
    let told : Environment := .set ⟨[]⟩ "RUST_LOG" "error"
    let arguments := ["check", "--operation", "a.json", "--metrics"]
    let arguments' := ["--log-level", "trace", "check", "--operation", "a.json", "--json", "--metrics"]
    let host : Host := { drain := ⟨List.reverse, List.reverse_perm⟩ }
    let outcomes := "# TYPE authorization counter\n" ++
      "authorization\x7bdescriptionClass=\"t\",success=\"false\"\x7d 1\n\n"
    let missing := "# TYPE authorization_missingApplication counter\n" ++
      "authorization_missingApplication\x7bdescriptionClass=\"t\",account=\"a\"\x7d 1\n\n"
    let denial := "authorization: Access denied to account a\n"
    let decided := "\x7b\n  \"account\": \"a\",\n  \"account_allowed\": false,\n" ++
      "  \"application_results\": [],\n  \"allowed\": false\n\x7d\n"
    (run arguments files set).exit = 1 ∧ (run arguments' files told host).exit = 1 ∧
      texts (run arguments files set).output = [denial, missing ++ outcomes] ∧
      texts (run arguments' files told host).output = [denial, decided, outcomes ++ missing] ∧
      ∃ decision blocks, texts (run arguments files set).output = [denial, String.join blocks] ∧
        texts (run arguments' files told host).output =
          [denial, decision ++ "\n", String.join blocks.reverse] := by
  intro files set told arguments arguments' host outcomes missing denial decided
  let i : Invocation := { operation := "a.json", metrics := true }
  let i' : Invocation := { operation := "a.json", logLevel := some "trace", json := true, metrics := true }
  have parsed : parse arguments set = .ok (.check i) := eq_ok_of_toOption (by decide +kernel)
  have parsed' : parse arguments' told = .ok (.check i') := eq_ok_of_toOption (by decide +kernel)
  let level : Settings.Tree := .leaf .environment (.text "debug")
  let telemetry : Settings.Tree := .table .environment [("log_level", level)]
  have given : Settings.givenBy files none set = .ok (.table .environment [("telemetry", telemetry)]) :=
    rfl
  have nothing : Settings.givenBy files none ⟨[]⟩ = .ok (.table .environment []) := rfl
  have unset : Settings.SourcesAlike files files none set ⟨[]⟩ := by
    unfold Settings.SourcesAlike
    rw [given, nothing]
    refine .ok ⟨fun k other => ?_, .sections ?_ nofun rfl ?_ nofun⟩
    · simpa [Settings.Tree.at?, findKey?] using other
    · rintro _ ⟨rfl⟩
      rfl
    · rintro _ ⟨rfl⟩
      exact ⟨"debug", rfl⟩
  have settings := unset.trans (sourcesAlike_set files none ⟨[]⟩ "error")
  have denied : (run arguments files set).exit = 1 := by decide +kernel
  obtain ⟨same, -, answered⟩ := observation_run {} host arguments arguments' files files set told i i'
    parsed parsed' ⟨rfl, rfl, rfl, rfl⟩ settings rfl fun _ _ _ _ => rfl
  obtain ⟨s, -, grants, o, decision, blocks, completes, -, -, -, printed, printed'⟩ :=
    answered (by rw [denied]; decide)
  have loaded : Settings.load files none set = .ok { telemetry := { logLevel := "debug" } } := by rfl
  obtain rfl := Except.ok.inj (loaded.symm.trans completes.1)
  have rejected : ((runCheck files i { telemetry := { logLevel := "debug" } }).2.toOption.map
      Outcome.rejections) = some [⟨"authorization", "Access denied to account a"⟩] := by decide +kernel
  rw [result_of_completes completes] at rejected
  have rejections : o.rejections = _ := Option.some.inj rejected
  unfold reportTexts at printed printed'
  rw [rejections] at printed printed'
  exact ⟨denied, same.symm.trans denied, by decide +kernel, by decide +kernel, decision, blocks, printed,
    printed'⟩

end Command
end Clearance
