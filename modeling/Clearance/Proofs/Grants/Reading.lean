import Clearance.Proofs.Grants.Drafts
import Clearance.Proofs.Vocabulary

/-!
Reading grant tables. A text is a table exactly if it has a draft, and what is read is the table of the
draft.
-/
namespace Clearance
open Json

/-! ### Reading a draft -/

theorem reads_level (l : Level) : Reads Level.vocabulary.reader (.ofText l.name) l :=
  reads_variant ((Level.spells.json_iff l.name l).2 rfl)

theorem reads_levels (ls : List Level) : Reads (elements Level.vocabulary.reader) (levelsDatum ls) ls :=
  reads_ofList reads_level ls

theorem reads_holdings (h : List (String × List Level)) :
    Reads Grants.holdings (holdingsDatum h) (holdingsOf h) := by
  have entries : List.Forall₂ (ReadsEntry (elements Level.vocabulary.reader))
      (h.map fun e => (e.1, levelsDatum e.2)) h :=
    List.forall₂_map_left_iff.2 (List.forall₂_same.2 fun e _ => ⟨rfl, reads_levels e.2⟩)
  exact reads_map (fun l : List (String × List Level) => holdingsOf l) (reads_entries entries)

namespace Grants

/-- Holdings take the place of those of a kind. -/
def place (k : Kind) (h : Holdings) (g : Grants) : Grants :=
  match k with
  | .account => { g with accounts := h }
  | .application => { g with applications := h }

theorem field?_eq_some {name : String} {f : Json.Field Grants} (h : record.field? name = some f) :
    ∃ k : Kind, name = k.member ∧ f = .of k.member holdings (place k) := by
  obtain ⟨field, rfl⟩ := Record.of_field? h
  simp only [record, List.mem_cons, List.not_mem_nil, or_false] at field
  rcases field with rfl | rfl
  · exact ⟨.account, rfl, rfl⟩
  · exact ⟨.application, rfl, rfl⟩

theorem field?_member (k : Kind) :
    record.field? k.member = some (.of k.member holdings (place k)) := by
  cases k <;> rfl

theorem knows_member (k : Kind) : record.knows k.member = true := by cases k <;> rfl

theorem exists_of_knows {name : String} (h : record.knows name = true) :
    ∃ k : Kind, name = k.member := by
  obtain ⟨f, found⟩ := Option.isSome_iff_exists.1 h
  obtain ⟨k, named, -⟩ := field?_eq_some found
  exact ⟨k, named⟩

/-- The grants that take one member's part from `g`, and the rest from `v`. -/
def take (g : Grants) (name : String) (v : Grants) : Grants where
  accounts := if name = Kind.account.member then g.accounts else v.accounts
  applications := if name = Kind.application.member then g.applications else v.applications

theorem take_member (g : Grants) (k : Kind) : g.take k.member = place k (g.ofKind k) := by
  cases k <;> rfl

theorem ofKind_take (g : Grants) (k : Kind) (name : String) (v : Grants) :
    (g.take name v).ofKind k = if name = k.member then g.ofKind k else v.ofKind k := by
  cases k <;> rfl

end Grants

section Members
variable {l : List (String × Datum)}

theorem GrantsDraft.fills {g : GrantsDraft}
    (h : ∀ k, AtMostOne l k.member (g.holdings k = []) fun y => y = holdingsDatum (g.holdings k)) :
    Grants.record.Fills g.grants.take l where
  once := by
    refine Record.once_iff.2 fun name known => ?_
    obtain ⟨k, rfl⟩ := Grants.exists_of_knows known
    exact (h k).length_le
  given f mem required := by
    simp only [Grants.record, List.mem_cons, List.not_mem_nil, or_false] at mem
    rcases mem with rfl | rfl <;> cases required
  reads := by
    rintro ⟨name, x⟩ mem f found
    obtain ⟨k, rfl, rfl⟩ := Grants.field?_eq_some found
    obtain rfl := (h k).of_mem mem
    rw [g.grants.take_member, g.ofKind_grants]
    exact reads_field _ _ (reads_holdings (g.holdings k))

theorem GrantsDraft.fill {g : GrantsDraft}
    (h : ∀ k, AtMostOne l k.member (g.holdings k = []) fun y => y = holdingsDatum (g.holdings k)) :
    Grants.record.fill g.grants.take l Grants.record.start = g.grants := by
  refine Grants.ext_ofKind fun k => ?_
  rw [Record.get_fill (·.ofKind k) (g.grants.ofKind k) (Grants.knows_member k) (g.grants.ofKind_take k)]
  split
  · rfl
  · rename_i missing
    rw [g.ofKind_grants, (h k).of_not_mem missing]
    cases k <;> rfl

end Members

theorem GrantsDraft.WrittenIn.reads {g : GrantsDraft} {x : Datum} (h : g.WrittenIn x) :
    Reads Grants.record.reader x g.grants := by
  obtain ⟨l, rfl, members⟩ := h
  exact g.fill members ▸ Record.reads_of_fills (g.fills members)

namespace GrantTable

/-- The principals as they are read, those that later ones replace included. -/
def principalsReader : Reader (Table String Grants) := fun s =>
  (entries Grants.record.reader s).map fun (l, rest) => (Table.ofList l, rest)

theorem field?_eq_some {name : String} {f : Json.Field GrantTable} (h : record.field? name = some f) :
    name = "principals" ∧ f = .of "principals" principalsReader fun p _ => ⟨p⟩ := by
  obtain ⟨field, rfl⟩ := Record.of_field? h
  obtain rfl := List.mem_singleton.1 field
  exact ⟨rfl, rfl⟩

theorem eq_of_knows {name : String} (h : record.knows name = true) : name = "principals" := by
  obtain ⟨f, found⟩ := Option.isSome_iff_exists.1 h
  exact (field?_eq_some found).1

end GrantTable

theorem PrincipalsWritten.reads {ps : List (String × GrantsDraft)} {x : Datum}
    (h : PrincipalsWritten ps x) :
    Reads GrantTable.principalsReader x (.ofList (ps.map fun p => (p.1, p.2.grants))) := by
  obtain ⟨l, rfl, each⟩ := h
  have entries : List.Forall₂ (ReadsEntry Grants.record.reader) l
      (ps.map fun p => (p.1, p.2.grants)) := by
    refine List.forall₂_map_right_iff.2 (each.imp fun m p named => ?_)
    exact ⟨named.1, named.2.reads⟩
  exact reads_map Table.ofList (reads_entries entries)

theorem TableDraft.WrittenIn.reads {d : TableDraft} {x : Datum} (h : d.WrittenIn x) :
    Reads GrantTable.record.reader x d.table := by
  obtain ⟨l, rfl, member⟩ := h
  let change (name : String) (t : GrantTable) : GrantTable := if name = "principals" then d.table else t
  have fills : GrantTable.record.Fills change l := by
    constructor
    · refine Record.once_iff.2 fun name known => ?_
      obtain rfl := GrantTable.eq_of_knows known
      exact member.length_le
    · intro f mem required
      obtain rfl := List.mem_singleton.1 mem
      cases required
    · rintro ⟨name, y⟩ mem f found
      obtain ⟨rfl, rfl⟩ := GrantTable.field?_eq_some found
      exact reads_field _ _ (member.of_mem mem).reads
  have filled : GrantTable.record.fill change l GrantTable.record.start = d.table := by
    have known : GrantTable.record.knows "principals" = true := rfl
    refine (Record.get_fill id d.table known (fun _ _ => rfl) l GrantTable.record.start).trans ?_
    split
    · rfl
    · rename_i missing
      unfold table
      rw [member.of_not_mem missing]
      rfl
  exact filled ▸ Record.reads_of_fills fills

/-! ### A draft for what was read -/

theorem level_of_takes {x : Datum} (h : Takes Level.vocabulary.reader x) (whole : x.Whole)
    (usual : ∀ l : Level, x ≠ .ofMembers [(l.name, .null)]) : ∃ l : Level, x = .ofText l.name := by
  obtain ⟨name, known, written⟩ := takes_variant whole h
  obtain ⟨l, found⟩ := Option.isSome_iff_exists.1 known
  obtain rfl := (Level.spells.json_iff name l).1 found
  exact ⟨l, written.resolve_right (usual l)⟩

theorem strict_levels : Strict (elements Level.vocabulary.reader) := strict_elements (strict_variant _)

theorem levels_of_takes {x : Datum} (h : Takes (elements Level.vocabulary.reader) x) (whole : x.Whole)
    (usual : UsualLevels x) : ∃ ls, x = levelsDatum ls := by
  obtain ⟨l, rfl, each⟩ := takes_elements h (strict_variant _)
  obtain ⟨ls, rfl⟩ := exists_map_eq fun y mem =>
    level_of_takes (each y mem) (whole.items y mem) (usual y ⟨l, rfl, mem⟩)
  exact ⟨ls, rfl⟩

theorem strict_holdings : Strict Grants.holdings :=
  strict_map (strict_entries strict_levels) fun l : List (String × List Level) => holdingsOf l

theorem holdings_of_takes {x : Datum} (h : Takes Grants.holdings x) (whole : x.Whole)
    (usual : UsualHoldings x) : ∃ e, x = holdingsDatum e := by
  obtain ⟨l, rfl, each⟩ := takes_entries (takes_map (f := holdingsOf) h) whole strict_levels
  obtain ⟨e, rfl⟩ : ∃ e : List (String × List Level), l = e.map fun e => (e.1, levelsDatum e.2) := by
    refine exists_map_eq fun m mem => ?_
    have usual := usual m.1 m.2 (Datum.member_of_mem mem)
    obtain ⟨ls, list⟩ := levels_of_takes (each m mem) (whole.of_mem m mem) usual
    exact ⟨(m.1, ls), Prod.ext rfl list⟩
  exact ⟨e, rfl⟩

theorem Grants.strict_fields : ∀ f ∈ record.fields, Strict f.read := by
  simp only [record, List.forall_mem_cons]
  exact ⟨strict_field strict_holdings _ _, strict_field strict_holdings _ _, List.forall_mem_nil _⟩

theorem grants_of_takes {x : Datum} (h : Takes Grants.record.reader x) (whole : x.Whole)
    (usual : UsualGrants x) : ∃ g : GrantsDraft, g.WrittenIn x := by
  obtain ⟨l, rfl⟩ := (Record.object_or_list_of_takes h).resolve_right (not_exists.2 usual.1)
  obtain ⟨l, object, -⟩ := whole.members
  rw [object] at h whole usual ⊢
  have parts (k : Kind) (y : Datum) (mem : (k.member, y) ∈ l) : y.Whole ∧ UsualHoldings y :=
    ⟨whole.of_mem _ mem, usual.2 k y (Datum.member_of_mem mem)⟩
  have fits := Record.takes_record h Grants.strict_fields
  have drafted (k : Kind) : ∃ e, AtMostOne l k.member (e = []) fun y => y = holdingsDatum e := by
    refine AtMostOne.exists_given (Record.once_iff.1 fits.once _ (Grants.knows_member k)) ⟨[], rfl⟩ ?_
    intro y mem
    obtain ⟨whole, usual⟩ := parts k y mem
    exact holdings_of_takes (takes_field (fits.takes _ mem _ (Grants.field?_member k))) whole usual
  choose e written using drafted
  exact ⟨⟨e⟩, l, rfl, written⟩

theorem strict_grants : Strict Grants.record.reader := Record.strict_reader Grants.strict_fields

theorem principals_of_takes {x : Datum} (h : Takes GrantTable.principalsReader x) (whole : x.Whole)
    (usual : ∀ principal y, x.Member principal y → UsualGrants y) :
    ∃ ps, PrincipalsWritten ps x := by
  obtain ⟨l, rfl, each⟩ := takes_entries (takes_map (f := Table.ofList) h) whole strict_grants
  have drafted : ∀ m ∈ l, ∃ p : String × GrantsDraft, m.1 = p.1 ∧ p.2.WrittenIn m.2 := by
    intro m mem
    have usual := usual m.1 m.2 (Datum.member_of_mem mem)
    obtain ⟨g, written⟩ := grants_of_takes (each m mem) (whole.of_mem m mem) usual
    exact ⟨(m.1, g), rfl, written⟩
  obtain ⟨ps, all⟩ := exists_forall₂ drafted
  exact ⟨ps, l, rfl, all⟩

theorem GrantTable.strict_fields : ∀ f ∈ record.fields, Strict f.read :=
  List.forall_mem_singleton.2
    (strict_field (strict_map (strict_entries strict_grants) Table.ofList) _ _)

theorem table_of_takes {x : Datum} (h : Takes GrantTable.record.reader x) (whole : x.Whole)
    (usual : UsualTable x) : ∃ d : TableDraft, d.WrittenIn x := by
  obtain ⟨l, rfl⟩ := (Record.object_or_list_of_takes h).resolve_right (not_exists.2 usual.1)
  obtain ⟨l, object, -⟩ := whole.members
  rw [object] at h whole usual ⊢
  have parts (y : Datum) (mem : ("principals", y) ∈ l) :
      y.Whole ∧ ∀ principal z, y.Member principal z → UsualGrants z :=
    ⟨whole.of_mem _ mem, usual.2 y (Datum.member_of_mem mem)⟩
  have fits := Record.takes_record h GrantTable.strict_fields
  obtain ⟨ps, written⟩ : ∃ ps, AtMostOne l "principals" (ps = []) (PrincipalsWritten ps) := by
    refine AtMostOne.exists_given (Record.once_iff.1 fits.once _ rfl) ⟨[], rfl⟩ ?_
    intro y mem
    obtain ⟨whole, usual⟩ := parts y mem
    exact principals_of_takes (takes_field (fits.takes _ mem _ rfl)) whole usual
  exact ⟨⟨ps⟩, l, rfl, written⟩

namespace GrantTable

/-- A text is a table if and only if it has a draft. The table allows what it would allow if the grants
that survive in the draft had been given one by one, in any order, to the empty table. -/
theorem parse_drafted {t : String} {x : Datum} (written : WrittenAs t x) (whole : x.Whole)
    (usual : UsualTable x) :
    ((∃ table, parse t = .ok table) ↔ ∃ d : TableDraft, d.WrittenIn x) ∧
      ∀ d : TableDraft, d.WrittenIn x → ∃ table, parse t = .ok table ∧
        (∃ gs : List Grant, gs.Nodup ∧ ∀ g, g ∈ gs ↔ d.Survives g) ∧
        ∀ gs : List Grant, (∀ g, g ∈ gs ↔ d.Survives g) →
          (∀ i k name l, table.allows i k name l =
            (({} : GrantTable).receiveAll gs).allows i k name l) ∧
          (table = ({} : GrantTable).receiveAll gs ↔ d.Full) := by
  have read {d : TableDraft} (drafted : d.WrittenIn x) : parse t = .ok d.table := by
    unfold parse
    rw [parse_written drafted.reads written]
    rfl
  constructor
  · constructor
    · rintro ⟨table, parsed⟩
      unfold parse at parsed
      cases taken : Json.parse record.reader t with
      | error cause =>
        rw [taken] at parsed
        cases parsed
      | ok table' => exact table_of_takes (takes_of_parse written taken) whole usual
    · rintro ⟨d, drafted⟩
      exact ⟨d.table, read drafted⟩
  · intro d drafted
    exact ⟨d.table, read drafted, d.exists_survivors, fun gs all =>
      ⟨TableDraft.allows_table all, TableDraft.table_eq_iff all⟩⟩

/-- A principal and a name are each repeated, with other levels. -/
theorem parse_drafted_overridden : ∃ table, parse
    r#"{"principals":{"u":{"accounts":{"a":[]},"applications":{}},
  "u":{"accounts":{"a":[],"a":["READ"]},"applications":{}}}}"# =
      .ok table ∧ table = ({} : GrantTable).receiveAll [⟨"u", .account, "a", .read⟩] := by
  have read {t : String} (written : WrittenAs t (TableDraft.datum
      ⟨[("u", ⟨fun | .account => [("a", [])] | .application => []⟩),
        ("u", ⟨fun | .account => [("a", []), ("a", [.read])] | .application => []⟩)]⟩)) :
      ∃ table, parse t = .ok table ∧
        table = ({} : GrantTable).receiveAll [⟨"u", .account, "a", .read⟩] := by
    obtain ⟨-, built⟩ := parse_drafted written (TableDraft.whole_datum _) (TableDraft.usual_datum _)
    obtain ⟨table, parsed, -, same⟩ := built _ (TableDraft.written_datum _)
    refine ⟨table, parsed, (same _ fun g => ?_).2.2 ?_⟩
    · rw [List.mem_singleton]
      constructor
      · rintro rfl
        exact ⟨_, _, (lastIn_repeated ..).2 ⟨rfl, rfl⟩, (lastIn_repeated ..).2 ⟨rfl, rfl⟩, .head _⟩
      · obtain ⟨principal, k, name, l⟩ := g
        rintro ⟨draft, levels, last, last', mem⟩
        obtain ⟨rfl, rfl⟩ := (lastIn_repeated ..).1 last
        cases k with
        | account =>
          obtain ⟨rfl, rfl⟩ := (lastIn_repeated ..).1 last'
          obtain rfl := List.mem_singleton.1 mem
          rfl
        | application => exact (lastIn_nil _ _ last').elim
    · intro principal draft last
      obtain ⟨rfl, rfl⟩ := (lastIn_repeated ..).1 last
      refine ⟨⟨.account, "a", _, (lastIn_repeated ..).2 ⟨rfl, rfl⟩⟩, fun k name levels last' => ?_⟩
      cases k with
      | account =>
        obtain ⟨rfl, rfl⟩ := (lastIn_repeated ..).1 last'
        exact List.cons_ne_nil _ _
      | application => exact (lastIn_nil _ _ last').elim
  refine read (writtenAs_ofList .none ?_ .none)
  have name (k : Kind) (rest : List Char) :=
    quoted_plain (k := k.member) (by cases k <;> simp [Kind.member]) rest
  exact .object (.lastMember .none (quoted_plain (by simp) _) .none .none (.object
    (.member .none (quoted_plain (by simp) _) .none .none (.object
      (.member .none (name .account _) .none .none (.object
        (.lastMember .none (quoted_plain (by simp) _) .none .none (.emptyList .none) .none)) .none
      (.lastMember .none (name .application _) .none .none (.emptyObject .none) .none))) .none
    (.lastMember (.blank rfl (.blank rfl (.blank rfl .none))) (quoted_plain (by simp) _) .none .none (.object
      (.member .none (name .account _) .none .none (.object
        (.member .none (quoted_plain (by simp) _) .none .none (.emptyList .none) .none
        (.lastMember .none (quoted_plain (by simp) _) .none .none
          (.list (.lastItem .none (.text (quoted_plain (by simp [Level.name]) _)) .none)) .none))) .none
      (.lastMember .none (name .application _) .none .none (.emptyObject .none) .none))) .none))) .none)

end GrantTable
end Clearance
