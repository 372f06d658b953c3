import Clearance.Proofs.Batch
import Clearance.Proofs.Command.Exit
import Clearance.Proofs.Counter.Exposition
import Clearance.Proofs.Reports
import Clearance.Proofs.Session

/-!
What a run prints, held against a check of the same operation that counts in memory. Rejections and the
decision are those of the check, and the counters are those that it leaves in memory.
-/
namespace Clearance

/-- What an evaluation counts: its outcome, and one more at most. -/
def countedNames : List (List String) :=
  [["authorization"], ["authorization.skipped", "authorization"],
    ["authorization.missingApplication", "authorization"]]

theorem Submission.Counts.names {x : Submission} {allowed : Bool} {is : List Increment}
    (h : x.Counts allowed is) (given : x.operation.isSome = true) :
    is.map Increment.name ∈ countedNames := by
  cases h with
  | nothing none =>
    rw [none] at given
    cases given
  | subject => exact .head _
  | waived => exact .tail _ (.head _)
  | missing => exact .tail _ (.tail _ (.head _))

theorem Submission.Counts.labelled {x : Submission} {allowed : Bool} {is : List Increment}
    (h : x.Counts allowed is) : ∀ i ∈ is, i.labels ≠ [] := by
  cases h <;> simp [Authorizer.outcomeCount, Authorizer.skippedCount, Authorizer.missingCount]

theorem nodup_of_countedNames : ∀ names ∈ countedNames, names.Nodup := by decide

theorem Outcome.trail_increments (o : Outcome) : o.trail.increments = o.increments := by
  obtain ⟨evaluation⟩ := o
  cases evaluation <;> rfl

/-- A check that is the first to count. -/
theorem checkNext_run_iff {s : Settings} {grants : Option GrantTable} {x : Inquiry} {o : Outcome}
    {j : Journal} : ((s.authorizer grants).1.checkNext s x).run {} = (.ok o, j) ↔
      check (s.authorizer grants).1 s x.document x.principal = .ok o ∧ j = Journal.enter {} (.ok o) := by
  rw [Authorizer.checkNext_run (Authorizer.steady_authorizer s grants), Prod.mk.injEq]
  unfold Authorizer.checkAlone
  constructor
  · rintro ⟨checked, rfl⟩
    exact ⟨checked, congrArg (Journal.enter {}) checked⟩
  · rintro ⟨checked, rfl⟩
    exact ⟨checked, congrArg (Journal.enter {}) checked⟩

theorem Journal.registry_enter (o : Outcome) :
    (Journal.enter {} (.ok o)).registry = ({} : Counter.Registry).apply o.increments := by
  rw [← o.trail_increments]
  rfl

/-- With authorization enabled there is a decision, otherwise there is none and nothing is counted. -/
theorem check_cases {s : Settings} {grants : Option GrantTable} {text : String}
    {principal : Option String} {o : Outcome}
    (h : check (s.authorizer grants).1 s text principal = .ok o) :
    (s.authorization.enabled = true ∧ (∃ d, o.decision = some d) ∧
        o.increments.map Increment.name ∈ countedNames ∧ ∀ i ∈ o.increments, i.labels ≠ []) ∨
      s.authorization.enabled = false ∧ o.decision = none ∧ o.increments = [] := by
  unfold check at h
  cases parsed : Document.parse text with
  | error cause =>
    rw [parsed] at h
    cases h
  | ok d =>
    rw [parsed] at h
    obtain rfl := Except.ok.inj h
    unfold Settings.authorizer
    cases enabled : s.authorization.enabled with
    | false => exact .inr ⟨rfl, rfl, rfl⟩
    | true =>
      refine .inl ⟨rfl, ?_⟩
      have counts := Authorizer.counts_addition
        (fun q => (grants.getD {}).allows q.identity q.kind q.name q.level)
        { operation := some d.operation, identity := some (caller principal), policy := s.security }
      simp only [if_true, GrantTable.backend, Authorizer.evaluate?_steady]
      exact ⟨⟨_, rfl⟩, counts.names rfl, counts.labelled⟩

namespace Command

def rejectionLine (r : Rejection) : String := r.code ++ ": " ++ r.message ++ "\n"

/-- What is printed of an outcome, with the text of its decision and the blocks of its counters. -/
def reportTexts (i : Invocation) (o : Outcome) (decision : String) (blocks : List String) :
    List String :=
  o.rejections.map rejectionLine ++ (if i.json then [decision ++ "\n"] else []) ++
    (if i.metrics then [String.join blocks] else [])

/-- The text of a decision: JSON for it, on lines of its own. -/
structure DecisionText (d : Option Decision) (text : String) : Prop where
  denotes : Json.Denotes text (.ofOption Decision.reported d)
  lines : DecisionLines d text

/-- What is printed of an outcome, with the counters of a registry in memory. -/
structure Transcript.Prints (t : Transcript) (i : Invocation) (s : Settings) (o : Outcome)
    (r : Counter.Registry) : Prop where
  output : ∃ decision blocks, DecisionText o.decision decision ∧ Counter.Blocks r blocks ∧
    texts t.output = reportTexts i o decision blocks
  enabled : s.authorization.enabled = true → (∃ d, o.decision = some d) ∧
    ∃ names ∈ countedNames, names.Perm (r.snapshot.map (·.1.name))
  disabled : s.authorization.enabled = false → o.decision = none ∧ r.snapshot = []

theorem decisionText_pretty (d : Option Decision) :
    DecisionText d (Json.Value.ofOption Decision.toValue d).pretty :=
  ⟨denotes_decision d, decisionLines_pretty d⟩

/-- Each name is counted once, so that there are blocks for the counters in memory. -/
theorem report_of_check {s : Settings} {grants : Option GrantTable} {text : String}
    {principal : Option String} {o : Outcome}
    (checked : check (s.authorizer grants).1 s text principal = .ok o) :
    ∃ decision blocks, DecisionText o.decision decision ∧
      Counter.Blocks (({} : Counter.Registry).apply o.increments) blocks ∧
      ∀ host i, report host i o = reportTexts i o decision (host.drain.order blocks) := by
  have counted : (o.increments.map Increment.name).Nodup ∧ ∀ i ∈ o.increments, i.labels ≠ [] := by
    rcases check_cases checked with ⟨-, -, names, labelled⟩ | ⟨-, -, none⟩
    · exact ⟨nodup_of_countedNames _ names, labelled⟩
    · rw [none]
      exact ⟨.nil, nofun⟩
  obtain ⟨distinct, labelled⟩ := counted
  refine ⟨_, _, decisionText_pretty o.decision, Counter.blocks_of_distinct distinct labelled, ?_⟩
  intro host i
  unfold report reportTexts
  rw [Counter.exposition_of_distinct distinct host.drain]
  rfl

theorem prints_of_reports {t : Transcript} {host : Host} {i : Invocation} {s : Settings}
    {grants : Option GrantTable} {text : String} {o : Outcome} (reports : t.Reports host i o)
    (checked : check (s.authorizer grants).1 s text i.principal = .ok o) :
    t.Prints i s o (({} : Counter.Registry).apply o.increments) := by
  have cases := check_cases checked
  constructor
  · obtain ⟨decision, blocks, denotes, counters, printed⟩ := report_of_check checked
    exact ⟨decision, _, denotes, counters.perm (host.drain.perm blocks),
      reports.output.trans (printed host i)⟩
  · intro enabled
    rcases cases with ⟨-, decided, counted, -⟩ | ⟨disabled, -⟩
    · have snapshot := Counter.snapshot_of_distinct (nodup_of_countedNames _ counted)
      have names := (snapshot.map (·.1.name)).symm
      rw [List.map_map] at names
      exact ⟨decided, _, counted, names⟩
    · cases enabled.symm.trans disabled
  · intro disabled
    rcases cases with ⟨enabled, -⟩ | ⟨-, undecided, none⟩
    · cases enabled.symm.trans disabled
    · rw [none]
      exact ⟨undecided, rfl⟩

/-- A run that ends with 0 or 1 has the same settings, grants and operation as a check that counts in
memory, and prints the rejections of that check, its decision and its counters, these in the order in
which they are let out. -/
theorem prints_run (host : Host) (arguments : List String) (files : Files) (e : Environment)
    (i : Invocation) (parsed : parse arguments e = .ok (.check i))
    (answered : (run arguments files e host).exit = 0 ∨ (run arguments files e host).exit = 1) :
    ∃ s grants text o j, Settings.load files i.config e = .ok s ∧
      loadGrants files i s = .ok grants ∧ files.readText i.operation = .ok text ∧
      ((s.authorizer grants).1.checkNext s ⟨text, i.principal⟩).run {} = (.ok o, j) ∧
      (run arguments files e host).Prints i s o j.registry := by
  obtain ⟨s, grants, o, ⟨loaded, granted, text, read, checked⟩, reports⟩ :=
    completes_of_answered parsed answered
  refine ⟨s, grants, text, o, _, loaded, granted, read, checkNext_run_iff.2 ⟨checked, rfl⟩, ?_⟩
  rw [Journal.registry_enter]
  exact prints_of_reports reports checked

/-- What can be seen of a check. -/
def observed? (r : Except Document.Error Outcome) :
    Option (List Rejection × Option Decision × List Increment) :=
  r.toOption.map fun o => (o.rejections, o.decision, o.increments)

/-- Nothing is granted, so that the account is denied, and no application is named. The counters come out
in an order other than that in which they were counted. -/
theorem prints_run_denied :
    let document := "\x7b\"type\":\"t\",\"account\":\"a\\\"b\"\x7d"
    let files : Files := fun _ => .ok document.toUTF8
    let arguments := ["check", "--operation", "a.json", "--json", "--metrics"]
    let i : Invocation := { operation := "a.json", json := true, metrics := true }
    let host : Host := { drain := ⟨List.reverse, List.reverse_perm⟩ }
    (run arguments files ⟨[]⟩ host).exit = 1 ∧
      texts (run arguments files ⟨[]⟩ host).output = [
        "authorization: Access denied to account a\"b\n",
        "\x7b\n  \"account\": \"a\\\"b\",\n  \"account_allowed\": false,\n" ++
          "  \"application_results\": [],\n  \"allowed\": false\n\x7d\n",
        "# TYPE authorization counter\n" ++
          "authorization\x7bdescriptionClass=\"t\",success=\"false\"\x7d 1\n\n" ++
          "# TYPE authorization_missingApplication counter\n" ++
          "authorization_missingApplication\x7bdescriptionClass=\"t\",account=\"a\\\"b\"\x7d 1\n\n"] ∧
      ∃ o r, (run arguments files ⟨[]⟩ host).Prints i {} o r ∧
        o.rejections = [⟨"authorization", "Access denied to account a\"b"⟩] ∧
        o.decision = some ⟨some "a\"b", false, [], false⟩ ∧
        r = ({} : Counter.Registry).apply [
          ⟨"authorization.missingApplication", [⟨"descriptionClass", "t"⟩, ⟨"account", "a\"b"⟩]⟩,
          ⟨"authorization", [⟨"descriptionClass", "t"⟩, ⟨"success", "false"⟩]⟩] := by
  intro document files arguments i host
  have parsed : parse arguments ⟨[]⟩ = .ok (.check i) := eq_ok_of_toOption (by decide +kernel)
  have answered : (run arguments files ⟨[]⟩ host).exit = 1 := by decide +kernel
  obtain ⟨s, grants, text, o, j, loaded, granted, read, checked, prints⟩ :=
    prints_run host arguments files ⟨[]⟩ i parsed (.inr answered)
  obtain rfl : {} = s := Except.ok.inj ((by rfl : _ = Except.ok {}).symm.trans loaded)
  obtain rfl : none = grants := Except.ok.inj ((by rfl : _ = Except.ok none).symm.trans granted)
  have found : files.readText i.operation = .ok document := eq_ok_of_toOption (by decide +kernel)
  obtain rfl := Except.ok.inj (found.symm.trans read)
  obtain ⟨outcome, rfl⟩ := checkNext_run_iff.1 checked
  have seen : observed? _ = some (o.rejections, o.decision, o.increments) := congrArg observed? outcome
  have evaluated : observed? (check (({} : Settings).authorizer none).1 {} document none) = some (
      [⟨"authorization", "Access denied to account a\"b"⟩], some ⟨some "a\"b", false, [], false⟩, [
        ⟨"authorization.missingApplication", [⟨"descriptionClass", "t"⟩, ⟨"account", "a\"b"⟩]⟩,
        ⟨"authorization", [⟨"descriptionClass", "t"⟩, ⟨"success", "false"⟩]⟩]) := by decide +kernel
  obtain ⟨rejections, rest⟩ := Prod.mk.inj (Option.some.inj (seen.symm.trans evaluated))
  obtain ⟨decision, increments⟩ := Prod.mk.inj rest
  refine ⟨answered, by decide +kernel, o, _, prints, rejections, decision, ?_⟩
  rw [Journal.registry_enter, increments]

end Command
end Clearance
