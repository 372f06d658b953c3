import Clearance.Operation.Document
import Clearance.Proofs.Json.Decoding

/-!
An operation document is read back from every text that it can be written as. The order of its members,
other members among them, blanks, and the escapes in its strings make no difference; whether a member is
there does, also where its value is null.
-/
namespace Clearance.Document
open Json

attribute [ext] Document

def memberNames : List String :=
  ["type", "account", "applications", "resourceApplications", "requiresApplicationRestriction"]

def datumOfNames : Names → Datum := .ofOption (.ofList (.ofOption .ofText))

/-- Members that say what the document does. A capability has a member exactly when it is there, as
null where nothing is given; a restriction that is not set has none, or null. Members of other names
may be anything. -/
structure RenderedBy (d : Document) (l : List (String × Datum)) : Prop where
  once : ((l.map Prod.fst).filter (· ∈ memberNames)).Nodup
  type : ∀ x, ("type", x) ∈ l ↔ x = .ofText d.type
  account : ∀ x, ("account", x) ∈ l ↔ ∃ a, d.account = some a ∧ x = .ofOption .ofText a
  applications : ∀ x, ("applications", x) ∈ l ↔ ∃ a, d.applications = some a ∧ x = datumOfNames a
  owners : ∀ x, ("resourceApplications", x) ∈ l ↔ ∃ a, d.owners = some a ∧ x = datumOfNames a
  restriction : ∀ x, ("requiresApplicationRestriction", x) ∈ l →
    x = .ofOption .boolean d.restriction
  restricted : d.restriction.isSome = true → "requiresApplicationRestriction" ∈ l.map Prod.fst

theorem reads_name (a : Option String) :
    Reads (nullable (text "a string")) (.ofOption .ofText a) a :=
  reads_ofOption (reads_text "a string") (fun _ h => nomatch h) a

theorem reads_names (l : Names) : Reads names (datumOfNames l) l :=
  reads_ofOption (reads_ofList reads_name) (fun _ h => nomatch h) l

theorem reads_restriction (b : Option Bool) : Reads (nullable boolean) (.ofOption .boolean b) b :=
  reads_ofOption reads_boolean (fun _ h => nomatch h) b

theorem knows_eq : record.knows = fun name => decide (name ∈ memberNames) := by
  funext name
  rw [Bool.eq_iff_iff, decide_eq_true_iff]
  simp only [Record.knows, Record.field?, List.find?_isSome, beq_iff_eq]
  simp [record, Field.of, memberNames, eq_comm]

/-- The document that takes one member's part from `d`, and the rest from `v`. -/
def take (d : Document) (name : String) (v : Document) : Document where
  type := if name = "type" then d.type else v.type
  account := if name = "account" then d.account else v.account
  applications := if name = "applications" then d.applications else v.applications
  owners := if name = "resourceApplications" then d.owners else v.owners
  restriction := if name = "requiresApplicationRestriction" then d.restriction else v.restriction

variable {d : Document} {l : List (String × Datum)}

theorem RenderedBy.type_mem (h : d.RenderedBy l) : "type" ∈ l.map Prod.fst :=
  List.mem_map.2 ⟨_, (h.type _).2 rfl, rfl⟩

theorem RenderedBy.account_mem (h : d.RenderedBy l) :
    d.account.isSome = true ↔ "account" ∈ l.map Prod.fst := by
  simp [Option.isSome_iff_exists, h.account, exists_comm]

theorem RenderedBy.applications_mem (h : d.RenderedBy l) :
    d.applications.isSome = true ↔ "applications" ∈ l.map Prod.fst := by
  simp [Option.isSome_iff_exists, h.applications, exists_comm]

theorem RenderedBy.owners_mem (h : d.RenderedBy l) :
    d.owners.isSome = true ↔ "resourceApplications" ∈ l.map Prod.fst := by
  simp [Option.isSome_iff_exists, h.owners, exists_comm]

theorem RenderedBy.fills (h : d.RenderedBy l) : record.Fills d.take l where
  once := by
    rw [knows_eq]
    exact h.once
  given f mem required := by
    simp only [record, Field.of, List.mem_cons, List.not_mem_nil, or_false] at mem
    rcases mem with rfl | rfl | rfl | rfl | rfl <;> first | exact h.type_mem | cases required
  reads := by
    rintro ⟨name, x⟩ mem f found
    have same := List.find?_some found
    have field := List.mem_of_find?_eq_some found
    simp only [record, List.mem_cons, List.not_mem_nil, or_false] at field
    rcases field with rfl | rfl | rfl | rfl | rfl <;> obtain rfl := (beq_iff_eq.1 same).symm
    · obtain rfl := (h.type x).1 mem
      exact reads_field "type" (fun t (v : Document) => { v with type := t }) (reads_text "a string" d.type)
    · obtain ⟨a, given, rfl⟩ := (h.account x).1 mem
      have taken : d.take "account" = fun v => { v with account := some a } := by
        rw [← given]
        rfl
      exact taken ▸ reads_field _ _ (reads_name a)
    · obtain ⟨a, given, rfl⟩ := (h.applications x).1 mem
      have taken : d.take "applications" = fun v => { v with applications := some a } := by
        rw [← given]
        rfl
      exact taken ▸ reads_field _ _ (reads_names a)
    · obtain ⟨a, given, rfl⟩ := (h.owners x).1 mem
      have taken : d.take "resourceApplications" = fun v => { v with owners := some a } := by
        rw [← given]
        rfl
      exact taken ▸ reads_field _ _ (reads_names a)
    · obtain rfl := h.restriction x mem
      exact reads_field _ _ (reads_restriction d.restriction)

theorem get_fill {β : Type} (get : Document → β) (name : String) (mem : name ∈ memberNames)
    (part : ∀ name' v, get (d.take name' v) = if name' = name then get d else get v)
    (absent : name ∉ l.map Prod.fst → get d = get record.start) :
    get (record.fill d.take l record.start) = get d := by
  have known : record.knows name = true := by simp [knows_eq, mem]
  rw [record.get_fill get (get d) known part]
  split
  · rfl
  · rename_i missing
    exact (absent missing).symm

theorem RenderedBy.fill (h : d.RenderedBy l) : record.fill d.take l record.start = d := by
  have unset {β : Type} {o : Option β} {name : String} (mem : o.isSome = true → name ∈ l.map Prod.fst)
      (missing : name ∉ l.map Prod.fst) : o = none := Option.not_isSome_iff_eq_none.1 (mt mem missing)
  have type := get_fill (d := d) (l := l) (·.type) "type" (by decide)
    (fun _ _ => rfl) (fun missing => absurd h.type_mem missing)
  have account := get_fill (d := d) (l := l) (·.account) "account" (by decide)
    (fun _ _ => rfl) (unset h.account_mem.1)
  have applications := get_fill (d := d) (l := l) (·.applications) "applications"
    (by decide) (fun _ _ => rfl) (unset h.applications_mem.1)
  have owners := get_fill (d := d) (l := l) (·.owners) "resourceApplications"
    (by decide) (fun _ _ => rfl) (unset h.owners_mem.1)
  have restriction := get_fill (d := d) (l := l) (·.restriction)
    "requiresApplicationRestriction" (by decide) (fun _ _ => rfl) (unset h.restricted)
  exact Document.ext type account applications owners restriction

theorem parse_rendered {t : String} (named : ∃ c ∈ d.type.toList, Text.isBlank c = false)
    (rendered : d.RenderedBy l) (written : WrittenAs t (.ofMembers l)) :
    parse t = .ok d ∧ (d.operation.scope.isSome = true ↔ "account" ∈ l.map Prod.fst) ∧
      (d.operation.applications.isSome = true ↔ "applications" ∈ l.map Prod.fst) ∧
      (d.operation.owners.isSome = true ↔ "resourceApplications" ∈ l.map Prod.fst) := by
  have read : Json.parse record.reader t = .ok d :=
    parse_written (rendered.fill ▸ Record.reads_of_fills rendered.fills) written
  have kept : d.type.toList.all Text.isBlank = false := by
    obtain ⟨c, mem, visible⟩ := named
    exact List.all_eq_false.2 ⟨c, mem, by simp [visible]⟩
  refine ⟨?_, ?_, rendered.applications_mem, rendered.owners_mem⟩
  · unfold parse
    simp [read, kept, Except.mapError, bind, Except.bind]
  · rw [← rendered.account_mem]
    simp [operation]

/-- An unknown member with a lone half in it, a name and a type with escapes, an account that is null. -/
theorem parse_rendered_escaped :
    (∃ c ∈ "a/😀".toList, Text.isBlank c = false) ∧
      parse " \x7b\"x\":[\"\\uD800\"],\n\"\\u0061ccount\" : null,\"type\":\"a\\/\\ud83d\\uDE00\"\x7d\n" =
        .ok { type := "a/😀", account := some none } := by
  have named : ∃ c ∈ "a/😀".toList, Text.isBlank c = false := ⟨'a', by decide, by decide⟩
  have rendered : RenderedBy { type := "a/😀", account := some none }
      [("x", .list [.text [.half 0xD800]]), ("account", .null), ("type", .ofText "a/😀")] := by
    constructor
    · decide
    all_goals simp [Datum.ofOption]
  have plain {c : Char} {l : List Mark} {s rest : List Char} (char : ' ' ≤ c ∧ c ≠ '"' ∧ c ≠ '\\')
      (h : Quoted l s rest) : Quoted (.char c :: l) (c :: s) rest :=
    .next (.plain char.1 char.2.1 char.2.2) h
  have hex {c : Char} (n : Nat) (h : n < 16 ∧ (c = Nat.digitChar n ∨ c = (Nat.digitChar n).toUpper)) :
      HexDigit c n := h
  have half (rest : List Char) : Quad 0xD800 ('D' :: '8' :: '0' :: '0' :: rest) rest :=
    .digits (hex 0xD (by decide)) (hex 8 (by decide)) (hex 0 (by decide)) (hex 0 (by decide))
  have letter (rest : List Char) : Quad 'a'.toNat ('0' :: '0' :: '6' :: '1' :: rest) rest :=
    .digits (hex 0 (by decide)) (hex 0 (by decide)) (hex 6 (by decide)) (hex 1 (by decide))
  have high (rest : List Char) : Quad (0xD800 + 0x3D) ('d' :: '8' :: '3' :: 'd' :: rest) rest :=
    .digits (hex 0xD (by decide)) (hex 8 (by decide)) (hex 3 (by decide)) (hex 0xD (by decide))
  have low (rest : List Char) : Quad (0xDC00 + 0x200) ('D' :: 'E' :: '0' :: '0' :: rest) rest :=
    .digits (hex 0xD (by decide)) (hex 0xE (by decide)) (hex 0 (by decide)) (hex 0 (by decide))
  refine ⟨named, (parse_rendered named rendered (writtenAs_ofList (.blank rfl .none) ?_
    (.blank (c := '\n') rfl .none))).1⟩
  exact .object
    (.member .none (plain (by decide) .close) .none .none
      (.list (.lastItem .none
        (.text (.next (.half (by decide) (by decide) (half _)) .close)) .none)) .none
    (.member (.blank (c := '\n') rfl .none)
      (.next (.unit (letter _)) (plain (by decide) (plain (by decide) (plain (by decide)
        (plain (by decide) (plain (by decide) (plain (by decide) .close)))))))
      (.blank (c := ' ') rfl .none) (.blank (c := ' ') rfl .none) .null .none
    (.lastMember .none
      (plain (by decide) (plain (by decide) (plain (by decide) (plain (by decide) .close)))) .none .none
      (.text (plain (by decide) (.next (.letter (by decide))
        (.next (.pair (by decide) (by decide) (by decide) (high _) (low _)) .close)))) .none)))

end Clearance.Document
