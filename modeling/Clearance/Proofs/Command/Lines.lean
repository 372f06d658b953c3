import Clearance.Proofs.Authorizer.Counting
import Clearance.Proofs.Command.Observation

/-!
The report of a run, read line by line. There is a line for each rejection as long as no denied name
breaks it, and then different rejections make different reports.
-/
namespace Clearance

namespace Text

/-- What stands before, between and after the line ends of a text. -/
def lines (t : String) : List String := (t.toList.splitOn '\n').map String.ofList

theorem lines_append (s t : String) : lines (s ++ "\n" ++ t) = lines s ++ lines t := by
  have split : (s ++ "\n" ++ t).toList = s.toList ++ '\n' :: t.toList := by simp
  unfold lines
  rw [split, List.splitOn_append_cons_self, List.map_append]

theorem lines_of_unbroken {t : String} (unbroken : '\n' ∉ t.toList) : lines t = [t] := by
  unfold lines
  rw [List.splitOn_eq_singleton unbroken]
  simp

theorem flatMap_lines {l : List String} (unbroken : ∀ t ∈ l, '\n' ∉ t.toList) : l.flatMap lines = l := by
  induction l with
  | nil => rfl
  | cons t l ih =>
    rw [List.flatMap_cons, lines_of_unbroken (unbroken t (List.mem_cons_self ..)),
      ih fun t mem => unbroken t (List.mem_cons_of_mem _ mem)]
    rfl

theorem not_mem_of_mem_splitOn {α : Type} [BEq α] [LawfulBEq α] {a : α} {l part : List α}
    (mem : part ∈ l.splitOn a) : a ∉ part := by
  induction l generalizing part with
  | nil =>
    rw [List.splitOn_nil] at mem
    simp [List.mem_singleton.1 mem]
  | cons b l ih =>
    rw [List.splitOn_cons_eq_if_modifyHead] at mem
    obtain ⟨first, others, split⟩ := List.exists_cons_of_ne_nil (List.splitOn_ne_nil a l)
    rw [split] at mem ih
    split at mem
    · rcases List.mem_cons.1 mem with rfl | mem
      · exact List.not_mem_nil
      · exact ih mem
    · rename_i other
      rcases List.mem_cons.1 mem with rfl | mem
      · rintro (_ | ⟨_, within⟩)
        · exact other BEq.rfl
        · exact ih (List.mem_cons_self ..) within
      · exact ih (List.mem_cons_of_mem _ mem)

theorem unbroken_of_mem_lines {t line : String} (mem : line ∈ lines t) : '\n' ∉ line.toList := by
  obtain ⟨part, cut, rfl⟩ := List.mem_map.1 mem
  simpa using not_mem_of_mem_splitOn cut

theorem lines_join (l : List String) :
    lines (String.join (l.map (· ++ "\n"))) = l.flatMap lines ++ [""] := by
  induction l with
  | nil => rfl
  | cons t l ih =>
    rw [List.map_cons, String.join_cons, lines_append, ih, List.flatMap_cons, List.append_assoc]

theorem lines_injective : Function.Injective lines := by
  intro s t same
  unfold lines at same
  have parts : s.toList.splitOn '\n' = t.toList.splitOn '\n' :=
    List.map_injective_iff.2 (fun _ _ => String.ofList_injective) same
  have joined := congrArg (['\n'].intercalate ·) parts
  simp only [List.intercalate_splitOn] at joined
  exact String.toList_injective joined

/-- Texts that are written one to a line are read back just if none of them has a line end. -/
theorem lines_join_eq_iff (l : List String) :
    lines (String.join (l.map (· ++ "\n"))) = l ++ [""] ↔ ∀ t ∈ l, '\n' ∉ t.toList := by
  constructor
  · intro read t mem
    have listed : t ∈ l ++ [""] := List.mem_append_left _ mem
    rw [← read] at listed
    exact unbroken_of_mem_lines listed
  · intro unbroken
    rw [lines_join, flatMap_lines unbroken]

end Text

open Authorizer

/-- Events of another severity are not for debugging. -/
theorem filter_debug_eq_nil {l : List Event} {severity : Severity}
    (all : ∀ event ∈ l, event.severity = severity) (other : severity ≠ .debug) :
    l.filter (·.severity == .debug) = [] :=
  List.filter_eq_nil_iff.2 fun event mem => by simpa [all event mem] using other

/-- Every denial is rejected, and logged for debugging. -/
theorem denials_of_evaluate? {a : Authorizer} {o : Operation} {identity : Option Identity}
    {p : Policy} {e : Evaluation} (h : a.evaluate? (some o) identity p = some e) :
    ∃ denied : List (Kind × String),
      e.rejections = denied.map (fun subject => rejection subject.1 subject.2) ∧
      e.events.filter (·.severity == .debug) =
        denied.map fun subject => deniedEvent o.type subject.1 subject.2 := by
  obtain ⟨b, rfl⟩ := exists_summary h
  let decision := summaryDecision b o identity p []
  let denied := subjects decision.deniedAccount decision.denied
  obtain ⟨waived, denials, missed⟩ := (logs_of_denied o p denied).severities
  refine ⟨denied, (summary_report b o identity p []).trans (report_eq_map _ _), ?_⟩
  have events : (summary b o identity p []).events = _ := summary_events_eq b o identity p []
  rw [events, List.filter_append, List.filter_append, filter_debug_eq_nil waived (by decide),
    filter_debug_eq_nil missed (by decide),
    List.filter_eq_self.2 fun e mem => beq_iff_eq.2 (denials e mem)]
  simp

theorem denials_of_check {a : Authorizer} {s : Settings} {text : String} {principal : Option String}
    {o : Outcome} (h : check a s text principal = .ok o) :
    ∃ (type : String) (denied : List (Kind × String)),
      o.rejections = denied.map (fun subject => rejection subject.1 subject.2) ∧
      o.events.filter (·.severity == .debug) =
        denied.map fun subject => deniedEvent type subject.1 subject.2 := by
  unfold check at h
  cases parsed : Document.parse text with
  | error cause =>
    rw [parsed] at h
    cases h
  | ok d =>
    rw [parsed] at h
    obtain rfl := Except.ok.inj h
    cases evaluated : a.evaluate? (some d.operation) (some (caller principal)) s.security with
    | none => exact ⟨d.type, [], rfl, rfl⟩
    | some e => exact ⟨d.type, denials_of_evaluate? evaluated⟩

namespace Command

/-- The line of a rejection, without its end. -/
def shown (r : Rejection) : String := r.code ++ ": " ++ r.message

/-- All that a run prints apart from log lines. -/
def Transcript.text (t : Transcript) : String := String.join (texts t.output)

/-- The account and the applications that are rejected, by their names. -/
def Denies (o : Outcome) (denied : List (Kind × String)) : Prop :=
  o.rejections = denied.map fun subject => rejection subject.1 subject.2

/-- No name has a line end. -/
def Unbroken (denied : List (Kind × String)) : Prop := ∀ subject ∈ denied, '\n' ∉ subject.2.toList

/-- Nothing is asked for but the rejections. -/
def Invocation.IsPlain (i : Invocation) : Prop := i.json = false ∧ i.metrics = false

theorem line_end_mem_shown (k : Kind) (name : String) :
    '\n' ∈ (shown (rejection k name)).toList ↔ '\n' ∈ name.toList := by
  cases k <;> simp [shown, rejection]

theorem shown_inj {k k' : Kind} {name name' : String}
    (same : shown (rejection k name) = shown (rejection k' name')) : k = k' ∧ name = name' := by
  have codes : (rejection k name).code = (rejection k' name').code := by cases k <;> cases k' <;> rfl
  unfold shown at same
  rw [codes] at same
  exact message_inj ((String.append_right_inj _).1 same)

theorem subject_shown_inj :
    Function.Injective fun subject : Kind × String => shown (rejection subject.1 subject.2) := by
  intro a a' same
  obtain ⟨kinds, names⟩ := shown_inj same
  exact Prod.ext kinds names

section Plain
variable {arguments : List String} {files : Files} {e : Environment} {i : Invocation} {s : Settings}
  {grants : Option GrantTable} {o : Outcome}

theorem text_of_completes (host : Host) (parsed : parse arguments e = .ok (.check i))
    (plain : i.IsPlain) (completes : Completes files e i s grants o) :
    (run arguments files e host).text = String.join ((o.rejections.map shown).map (· ++ "\n")) := by
  have reported : report host i o = (o.rejections.map shown).map (· ++ "\n") := by
    unfold report
    rw [plain.1, plain.2, List.map_map]
    simp [shown, Function.comp_def]
  unfold Transcript.text
  rw [run_of_loaded parsed completes.1, texts_filter, texts_runCheck, result_of_completes completes]
  exact congrArg String.join reported

theorem denies_of_completes (completes : Completes files e i s grants o) :
    ∃ denied, Denies o denied := by
  obtain ⟨-, -, text, -, checked⟩ := completes
  obtain ⟨-, denied, rejected, -⟩ := denials_of_check checked
  exact ⟨denied, rejected⟩

theorem unbroken_iff {denied : List (Kind × String)} (denies : Denies o denied) :
    (∀ line ∈ o.rejections.map shown, '\n' ∉ line.toList) ↔ Unbroken denied := by
  rw [denies, List.map_map, List.forall_mem_map]
  exact forall₂_congr fun subject _ => not_congr (line_end_mem_shown subject.1 subject.2)

end Plain

/-- The report of a run that answers has a line for each rejection, in order, and no other, exactly if no
denied name has a line end. Two runs print the same report exactly if the lines of their rejections
are the same, wherever one rejection ends and the next begins; so where no denied name has a line end,
they print different reports if their rejections differ. -/
theorem report_lines (host : Host) (arguments : List String) (files : Files) (e : Environment)
    (i : Invocation) (parsed : parse arguments e = .ok (.check i)) (plain : i.IsPlain)
    (answered : (run arguments files e host).exit = 0 ∨ (run arguments files e host).exit = 1) :
    ∃ s grants o denied, Completes files e i s grants o ∧ Denies o denied ∧
      (Text.lines (run arguments files e host).text = o.rejections.map shown ++ [""] ↔
        Unbroken denied) ∧
      ∀ host' arguments' files' e' i' s' grants' o' denied', parse arguments' e' = .ok (.check i') →
        i'.IsPlain → Completes files' e' i' s' grants' o' → Denies o' denied' →
        ((run arguments files e host).text = (run arguments' files' e' host').text ↔
          (o.rejections.map shown).flatMap Text.lines =
            (o'.rejections.map shown).flatMap Text.lines) ∧
        (Unbroken denied → Unbroken denied' → o.rejections ≠ o'.rejections →
          (run arguments files e host).text ≠ (run arguments' files' e' host').text) := by
  obtain ⟨s, grants, o, completes, -⟩ := completes_of_answered parsed answered
  obtain ⟨denied, denies⟩ := denies_of_completes completes
  have text := text_of_completes host parsed plain completes
  refine ⟨s, grants, o, denied, completes, denies, ?_, ?_⟩
  · rw [text, Text.lines_join_eq_iff, unbroken_iff denies]
  · intro host' arguments' files' e' i' s' grants' o' denied' parsed' plain' completes' denies'
    have text' := text_of_completes host' parsed' plain' completes'
    have same_iff : (run arguments files e host).text = (run arguments' files' e' host').text ↔
        (o.rejections.map shown).flatMap Text.lines =
          (o'.rejections.map shown).flatMap Text.lines := by
      rw [← Text.lines_injective.eq_iff, text, text', Text.lines_join, Text.lines_join,
        List.append_left_inj]
    refine ⟨same_iff, ?_⟩
    intro unbroken unbroken' differ same
    have lines := same_iff.1 same
    rw [Text.flatMap_lines ((unbroken_iff denies).2 unbroken),
      Text.flatMap_lines ((unbroken_iff denies').2 unbroken'), denies, denies', List.map_map,
      List.map_map] at lines
    rw [denies, denies', List.map_injective_iff.2 subject_shown_inj lines] at differ
    exact differ rfl

/-- What is rejected in a run with these settings, if it answers. -/
def rejected? (files : Files) (i : Invocation) (s : Settings) : Option (List Rejection) :=
  (runCheck files i s).2.toOption.map Outcome.rejections

/-- Two applications are denied, and there is a line for each of them. -/
theorem report_lines_two :
    let files : Files :=
      fun _ => .ok "\x7b\"type\":\"t\",\"applications\":[\"a\",\"b\"]\x7d".toUTF8
    let arguments := ["check", "--operation", "a.json"]
    (run arguments files ⟨[]⟩).exit = 1 ∧ ∃ o : Outcome,
      o.rejections = [rejection .application "a", rejection .application "b"] ∧
      Text.lines (run arguments files ⟨[]⟩).text = o.rejections.map shown ++ [""] := by
  intro files arguments
  let i : Invocation := { operation := "a.json" }
  have parsed : parse arguments ⟨[]⟩ = .ok (.check i) := eq_ok_of_toOption (by decide +kernel)
  have answered : (run arguments files ⟨[]⟩).exit = 1 := by decide +kernel
  obtain ⟨s, grants, o, denied, completes, denies, lines, -⟩ :=
    report_lines {} arguments files ⟨[]⟩ i parsed ⟨rfl, rfl⟩ (.inr answered)
  have loaded : Settings.load files i.config ⟨[]⟩ = .ok {} := by rfl
  obtain rfl := Except.ok.inj (loaded.symm.trans completes.1)
  have rejected : rejected? files i {} =
      some [rejection .application "a", rejection .application "b"] := by decide +kernel
  unfold rejected? at rejected
  rw [result_of_completes completes] at rejected
  have rejections := Option.some.inj rejected
  refine ⟨answered, o, rejections, lines.2 ((unbroken_iff denies).1 ?_)⟩
  rw [rejections]
  decide +kernel

/-- One rejection is printed just as two others, since the name of its account has a line end. -/
theorem report_lines_forged :
    let forged : Files := fun _ => .ok ("\x7b\"type\":\"t\"," ++
      "\"account\":\"a\\nauthorization: Access denied to application b\"\x7d").toUTF8
    let files : Files :=
      fun _ => .ok "\x7b\"type\":\"t\",\"account\":\"a\",\"applications\":[\"b\"]\x7d".toUTF8
    let arguments := ["check", "--operation", "a.json"]
    let i : Invocation := { operation := "a.json" }
    parse arguments ⟨[]⟩ = .ok (.check i) ∧
      Settings.load forged i.config ⟨[]⟩ = .ok {} ∧ Settings.load files i.config ⟨[]⟩ = .ok {} ∧
      rejected? forged i {} =
        some [rejection .account "a\nauthorization: Access denied to application b"] ∧
      rejected? files i {} = some [rejection .account "a", rejection .application "b"] ∧
      (run arguments forged ⟨[]⟩).exit = 1 ∧ (run arguments files ⟨[]⟩).exit = 1 ∧
      (run arguments forged ⟨[]⟩).text = (run arguments files ⟨[]⟩).text := by
  intro forged files arguments i
  refine ⟨eq_ok_of_toOption (by decide +kernel), by rfl, by rfl, ?_, ?_, ?_, ?_, ?_⟩
  · decide +kernel
  · decide +kernel
  · decide +kernel
  · decide +kernel
  · decide +kernel

end Command
end Clearance
