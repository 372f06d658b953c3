import Clearance.Event
import Clearance.Proofs.Json.Printing

/-!
The line of an event in the log. It is JSON for an object with the time, the severity and all there is to
tell of the event.
-/
namespace Clearance.Event
open Json

/-- The text of an event says of which kind it is, and the fields say the rest. -/
theorem eq_of_fields {a b : Event} (message : a.message = b.message) (fields : a.fields = b.fields) :
    a = b := by
  cases a with
  | skipped type account =>
    cases b with
    | skipped type' account' => cases account <;> cases account' <;> simp_all [Event.fields]
    | _ => simp [Event.message] at message
  | accountDenied | applicationDenied | missingApplication | checked =>
    cases b <;> simp_all [Event.message, Event.fields]
  | authorizationDisabled | noGrants => cases b <;> simp_all [Event.message]

/-- The object that an event is logged as at a time. -/
def datum (time : String) (e : Event) : Datum :=
  .ofMembers [
    ("timestamp", .ofText time),
    ("level", .ofText e.severity.name),
    ("fields", .ofMembers (("message", .ofText e.message) :: e.fields.map fun f => (f.1, f.2.datum)))]

/-- An event as it is printed. -/
def logLine (time : String) (e : Event) : String := e.line time ++ "\n"

/-- A line of the log whose level is that for debugging. -/
def IsDebugLine (line : String) : Prop :=
  ∃ time fields, Denotes line
    (.ofMembers [("timestamp", .ofText time), ("level", .ofText "DEBUG"), ("fields", fields)])

theorem denotes_logLine (time : String) (e : Event) : Denotes (logLine time e) (e.datum time) := by
  let fields : Value := .object (("message", .text e.message) :: e.fields)
  let v : Value := .object [("timestamp", .text time), ("level", .text e.severity.name), ("fields", fields)]
  have same : v.datum = e.datum time := by
    simp only [v, fields, Value.datum, Value.memberData, Value.memberData_eq, datum]
  have line : (logLine time e).toList = v.compactChars ++ ['\n'] := by
    rw [logLine, String.toList_append]
    exact congrArg (· ++ ['\n']) String.toList_ofList
  rw [← same]
  refine Value.denotes_of_written ⟨_, ['\n'], .none, ?_, .blank rfl .none⟩
  rw [line]
  exact Value.written_compactChars v ['\n']

theorem logLine_inj {time time' : String} {e e' : Event} (same : logLine time e = logLine time' e') :
    time = time' ∧ e = e' := by
  have value := Value.compact_injective ((String.append_left_inj _).1 same)
  simp only [Value.object.injEq, List.cons.injEq, Prod.mk.injEq, Value.text.injEq, true_and,
    and_true] at value
  exact ⟨value.1, eq_of_fields value.2.2.1 value.2.2.2⟩

theorem isDebugLine_logLine (time : String) (e : Event) :
    IsDebugLine (logLine time e) ↔ e.severity = .debug := by
  have read := denotes_logLine time e
  constructor
  · rintro ⟨time', fields, denoted⟩
    have members := Datum.ofMembers_injective (read.inj denoted)
    simp only [List.cons.injEq, Prod.mk.injEq, true_and] at members
    have level : e.severity.name = "DEBUG" := Datum.ofText_injective members.2.1
    revert level
    cases e.severity <;> decide
  · intro debug
    unfold datum at read
    rw [debug] at read
    exact ⟨time, _, read⟩

end Clearance.Event
