import Clearance.Command.Run
import Clearance.Proofs.Json.Printing

/-!
What is reported as JSON: the rejections of a collector, and the decision of a run. The texts are JSON, and
all that was reported can be told from them. A decision is laid out on lines, one for each of its members
and for each part of a result.
-/
namespace Clearance
open Json

/-- The object that a rejection is reported as. -/
def Rejection.reported (r : Rejection) : Datum :=
  .ofMembers [("code", .ofText r.code), ("message", .ofText r.message)]

def Collector.reported (c : Collector) : Datum := .ofList Rejection.reported c.rejections

/-- The object that a decision is reported as. -/
def Decision.reported (d : Decision) : Datum :=
  .ofMembers [
    ("account", .ofOption .ofText d.account),
    ("account_allowed", .boolean d.accountAllowed),
    ("application_results", .ofList (fun a => .list [.ofText a.1, .boolean a.2]) d.applications),
    ("allowed", .boolean d.allowed)]

theorem datum_collector (c : Collector) : c.toValue.datum = c.reported := by
  unfold Collector.toValue Collector.reported
  rw [Value.datum, Value.data_eq, List.map_map]
  rfl

theorem datum_decision (d : Decision) : d.toValue.datum = d.reported := by
  unfold Decision.toValue Decision.reported
  simp only [Value.datum, Value.memberData, Value.datum_ofOption, Value.data_eq, List.map_map]
  rfl

theorem denotes_decision (o : Option Decision) :
    Denotes (Value.ofOption Decision.toValue o).pretty (.ofOption Decision.reported o) := by
  have datum : (Value.ofOption Decision.toValue o).datum = .ofOption Decision.reported o := by
    rw [Value.datum_ofOption, funext datum_decision]
  rw [← datum]
  exact (Value.ofOption Decision.toValue o).denotes_pretty

/-! ### The lines of a decision -/

def truth (b : Bool) : String := if b then "true" else "false"

/-- The lines of an application and its answer. -/
def ResultLines (r : String × Bool) (text : String) : Prop :=
  ∃ name, Denotes name (.ofText r.1) ∧
    text = "\n    [\n      " ++ name ++ ",\n      " ++ truth r.2 ++ "\n    ]"

inductive ResultsLines : List (String × Bool) → String → Prop where
  | none : ResultsLines [] "[]"
  | some {results : List (String × Bool)} {parts : List String} : results ≠ [] →
    List.Forall₂ ResultLines results parts →
    ResultsLines results ("[" ++ String.intercalate "," parts ++ "\n  ]")

/-- The lines that a decision is printed on, two blanks further in for each level. -/
inductive DecisionLines : Option Decision → String → Prop where
  | none : DecisionLines none "null"
  | some {d : Decision} {account results : String} : Denotes account (.ofOption .ofText d.account) →
    ResultsLines d.applications results →
    DecisionLines (some d) ("\x7b\n  \"account\": " ++ account ++
      ",\n  \"account_allowed\": " ++ truth d.accountAllowed ++
      ",\n  \"application_results\": " ++ results ++
      ",\n  \"allowed\": " ++ truth d.allowed ++ "\n\x7d")

theorem toList_truth (b : Bool) : (truth b).toList = word b := by cases b <;> rfl

theorem intercalate_separated {α : Type} (part : α → List Char) (l : List α) :
    (String.intercalate "," (l.map fun a => String.ofList (part a))).toList = Value.separated part l := by
  induction l with
  | nil => rfl
  | cons a l ih =>
    cases l with
    | nil => simp [Value.separated]
    | cons b l =>
      rw [List.map_cons] at ih
      rw [List.map_cons, List.map_cons, String.intercalate_cons_cons, Value.separated, ← ih]
      simp

theorem resultLines_item (r : String × Bool) :
    ResultLines r (String.ofList
      (Value.newLine 2 ++ (Value.list [.text r.1, .boolean r.2]).prettyChars 2)) := by
  refine ⟨String.ofList (quote r.1), (Value.text r.1).denotes_compact, String.toList_inj.1 ?_⟩
  simp [Value.newLine, Value.prettyChars, Value.prettyItems, toList_truth]

theorem resultsLines_list (l : List (String × Bool)) :
    ResultsLines l (String.ofList
      ((Value.list (l.map fun (name, b) => .list [.text name, .boolean b])).prettyChars 1)) := by
  cases l with
  | nil => exact .none
  | cons r l =>
    let item (r : String × Bool) : Value := .list [.text r.1, .boolean r.2]
    let part (v : Value) : List Char := Value.newLine 2 ++ v.prettyChars 2
    let items := (r :: l).map item
    have parts : List.Forall₂ ResultLines (r :: l) (items.map fun v => String.ofList (part v)) := by
      rw [List.map_map]
      exact List.forall₂_map_right_iff.2 (List.forall₂_same.2 fun r _ => resultLines_item r)
    have text : String.ofList ((Value.list items).prettyChars 1) =
        "[" ++ String.intercalate "," (items.map fun v => String.ofList (part v)) ++ "\n  ]" := by
      refine String.toList_inj.1 ?_
      rw [String.toList_append, String.toList_append, intercalate_separated]
      simp [items, Value.prettyChars, Value.prettyItems_eq, Value.newLine, part]
    exact text ▸ .some (List.cons_ne_nil r l) parts

theorem pretty_members (account results : Value) (accountAllowed allowed : Bool) :
    (Value.object [("account", account), ("account_allowed", .boolean accountAllowed),
        ("application_results", results), ("allowed", .boolean allowed)]).pretty =
      "\x7b\n  \"account\": " ++ String.ofList (account.prettyChars 1) ++
        ",\n  \"account_allowed\": " ++ truth accountAllowed ++
        ",\n  \"application_results\": " ++ String.ofList (results.prettyChars 1) ++
        ",\n  \"allowed\": " ++ truth allowed ++ "\n\x7d" := by
  refine String.toList_inj.1 ?_
  simp [Value.pretty, Value.prettyChars, Value.prettyMembers, Value.newLine, quote, escaped, toList_truth]

theorem decisionLines_pretty (o : Option Decision) :
    DecisionLines o (Value.ofOption Decision.toValue o).pretty := by
  cases o with
  | none => exact .none
  | some d =>
    have account := (Value.ofOption .text d.account).denotes_prettyChars 1
    rw [Value.datum_ofOption] at account
    have lines := DecisionLines.some account (resultsLines_list d.applications)
    rwa [← pretty_members] at lines

theorem Rejection.toValue_injective : Function.Injective toValue := by
  rintro ⟨code, message⟩ ⟨code', message'⟩ same
  simp only [toValue, Value.object.injEq, List.cons.injEq, Prod.mk.injEq, Value.text.injEq, true_and,
    and_true] at same
  obtain ⟨rfl, rfl⟩ := same
  rfl

theorem Collector.toValue_injective : Function.Injective toValue := by
  rintro ⟨l⟩ ⟨l'⟩ same
  exact congrArg Collector.mk (List.map_injective_iff.2 Rejection.toValue_injective (Value.list.inj same))

theorem Decision.toValue_injective : Function.Injective toValue := by
  rintro ⟨account, accountAllowed, applications, allowed⟩ ⟨account', accountAllowed', applications', allowed'⟩
    same
  simp only [toValue, Value.object.injEq, List.cons.injEq, Prod.mk.injEq, Value.boolean.injEq,
    Value.list.injEq, true_and, and_true] at same
  obtain ⟨accounts, rfl, results, rfl⟩ := same
  obtain rfl := Value.ofOption_injective (fun _ _ => Value.text.inj) nofun accounts
  have apart : Function.Injective fun a : String × Bool => Value.list [.text a.1, .boolean a.2] := by
    rintro ⟨name, answer⟩ ⟨name', answer'⟩ same
    simp only [Value.list.injEq, List.cons.injEq, Value.text.injEq, Value.boolean.injEq, and_true] at same
    obtain ⟨rfl, rfl⟩ := same
    rfl
  obtain rfl := List.map_injective_iff.2 apart results
  rfl

/-- The text of a collector is JSON for its rejections in order, and the text of a decision for the
decision; without one it is null. No two collectors, and no two decisions, have the same text. -/
theorem reports_denote :
    (∀ c : Collector, Denotes c.toValue.compact c.reported) ∧
      (∀ o : Option Decision,
        Denotes (Value.ofOption Decision.toValue o).pretty (.ofOption Decision.reported o)) ∧
      (∀ c c' : Collector, c.toValue.compact = c'.toValue.compact ↔ c = c') ∧
      (∀ o o' : Option Decision, (Value.ofOption Decision.toValue o).pretty =
        (Value.ofOption Decision.toValue o').pretty ↔ o = o') ∧
      (Value.ofOption Decision.toValue none).pretty = "null" := by
  have decisions : Function.Injective (Value.ofOption Decision.toValue) :=
    Value.ofOption_injective Decision.toValue_injective nofun
  refine ⟨?_, ?_, ?_, ?_, rfl⟩
  · intro c
    rw [← datum_collector]
    exact c.toValue.denotes_compact
  · exact denotes_decision
  · exact fun c c' => (Value.compact_injective.comp Collector.toValue_injective).eq_iff
  · exact fun o o' => (Value.pretty_injective.comp decisions).eq_iff

end Clearance
