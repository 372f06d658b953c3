import Mathlib.Data.List.Dedup
import Clearance.Proofs.Grants.Building
import Clearance.Proofs.Json.Forms
import Clearance.Proofs.Json.Maps

/-!
Grant tables as they are written down. A draft keeps what a text says, in the order of the text and with
the entries that later ones override. What is granted is what the last entries say, and the table that
is made of a draft allows the same as one that is built grant by grant.
-/
namespace Clearance
open Json

namespace Json.Datum

def Member (x : Datum) (name : String) (y : Datum) : Prop := ∃ l, x = .object l ∧ (marks name, y) ∈ l

theorem member_of_mem {l : List (String × Datum)} {name : String} {y : Datum} (h : (name, y) ∈ l) :
    (ofMembers l).Member name y :=
  ⟨_, rfl, List.mem_map_of_mem (f := fun m => (marks m.1, m.2)) h⟩

theorem exists_of_member {l : List (String × Datum)} {name : String} {y : Datum}
    (h : (ofMembers l).Member name y) : ∃ m ∈ l, m.2 = y := by
  obtain ⟨_, object, mem⟩ := h
  obtain rfl := Datum.object.inj object
  obtain ⟨m, mem, here⟩ := List.mem_map.1 mem
  exact ⟨m, mem, (Prod.mk.inj here).2⟩

def Item (x y : Datum) : Prop := ∃ l, x = .list l ∧ y ∈ l

end Json.Datum

def Kind.member : Kind → String
  | .account => "accounts"
  | .application => "applications"

/-- For each kind names with the levels that are listed for them. -/
structure GrantsDraft where
  holdings : Kind → List (String × List Level)

structure TableDraft where
  principals : List (String × GrantsDraft)

def levelsDatum : List Level → Datum := .ofList fun l => .ofText l.name

def holdingsDatum (h : List (String × List Level)) : Datum :=
  .ofMembers (h.map fun e => (e.1, levelsDatum e.2))

/-- An object that holds the names of each kind in a member of its own, once at most. Members of other
names may be anything. -/
def GrantsDraft.WrittenIn (g : GrantsDraft) (x : Datum) : Prop :=
  ∃ l, x = .ofMembers l ∧
    ∀ k, AtMostOne l k.member (g.holdings k = []) fun y => y = holdingsDatum (g.holdings k)

/-- An object of the principals, in their order, and of what is written for each. -/
def PrincipalsWritten (ps : List (String × GrantsDraft)) (x : Datum) : Prop :=
  ∃ l, x = .ofMembers l ∧ List.Forall₂ (fun m p => m.1 = p.1 ∧ p.2.WrittenIn m.2) l ps

/-- An object with the principals as one member at most. -/
def TableDraft.WrittenIn (d : TableDraft) (x : Datum) : Prop :=
  ∃ l, x = .ofMembers l ∧
    AtMostOne l "principals" (d.principals = []) (PrincipalsWritten d.principals)

def GrantsDraft.datum (g : GrantsDraft) : Datum :=
  .ofMembers ([Kind.account, .application].map fun k => (k.member, holdingsDatum (g.holdings k)))

/-- One way to write a draft, with no member left out. -/
def TableDraft.datum (d : TableDraft) : Datum :=
  .ofMembers [("principals", .ofMembers (d.principals.map fun p => (p.1, p.2.datum)))]

/-- A grant of the last entry of its principal, by the last entry of its name. -/
def TableDraft.Survives (d : TableDraft) (g : Grant) : Prop :=
  ∃ draft levels, LastIn d.principals g.principal draft ∧
    LastIn (draft.holdings g.kind) g.name levels ∧ g.level ∈ levels

/-- No last entry of a principal is without a name, and no last entry of a name without a level. -/
def TableDraft.Full (d : TableDraft) : Prop :=
  ∀ principal draft, LastIn d.principals principal draft →
    (∃ k name levels, LastIn (draft.holdings k) name levels) ∧
      ∀ k name levels, LastIn (draft.holdings k) name levels → levels ≠ []

section Usual

/-- No level is written as an object of its name and null. -/
def UsualLevels (x : Datum) : Prop := ∀ y, x.Item y → ∀ l : Level, y ≠ .ofMembers [(l.name, .null)]

def UsualHoldings (x : Datum) : Prop := ∀ name y, x.Member name y → UsualLevels y

/-- Grants are not written as a list of their parts. -/
def UsualGrants (x : Datum) : Prop :=
  (∀ l, x ≠ .list l) ∧ ∀ (k : Kind) y, x.Member k.member y → UsualHoldings y

/-- Neither is a table, nor what it holds. -/
def UsualTable (x : Datum) : Prop :=
  (∀ l, x ≠ .list l) ∧ ∀ y, x.Member "principals" y → ∀ principal z, y.Member principal z →
    UsualGrants z

end Usual

section Datum

theorem whole_holdingsDatum (h : List (String × List Level)) : (holdingsDatum h).Whole :=
  .object (List.forall_mem_map.2 fun _ _ => .list (List.forall_mem_map.2 fun _ _ => .text))

theorem usual_holdingsDatum (h : List (String × List Level)) : UsualHoldings (holdingsDatum h) := by
  intro name y member
  obtain ⟨m, mem, rfl⟩ := Datum.exists_of_member member
  obtain ⟨e, -, rfl⟩ := List.mem_map.1 mem
  rintro z ⟨items, list, item⟩ level
  obtain rfl := Datum.list.inj list
  obtain ⟨l, -, rfl⟩ := List.mem_map.1 item
  exact nofun

variable (g : GrantsDraft) (d : TableDraft)

theorem GrantsDraft.written_datum : g.WrittenIn g.datum := by
  refine ⟨_, rfl, fun k => ?_⟩
  cases k <;> exact .given rfl rfl

theorem GrantsDraft.whole_datum : g.datum.Whole :=
  .object (List.forall_mem_map.2 fun k _ => whole_holdingsDatum (g.holdings k))

theorem GrantsDraft.usual_datum : UsualGrants g.datum := by
  refine ⟨nofun, fun k y member => ?_⟩
  obtain ⟨m, mem, rfl⟩ := Datum.exists_of_member member
  obtain ⟨k, -, rfl⟩ := List.mem_map.1 mem
  exact usual_holdingsDatum (g.holdings k)

theorem TableDraft.written_datum : d.WrittenIn d.datum := by
  refine ⟨_, rfl, .given rfl ⟨_, rfl, ?_⟩⟩
  exact List.forall₂_map_left_iff.2 (List.forall₂_same.2 fun p _ => ⟨rfl, p.2.written_datum⟩)

theorem TableDraft.whole_datum : d.datum.Whole :=
  .object (List.forall_mem_singleton.2 (.object (List.forall_mem_map.2 fun p _ => p.2.whole_datum)))

theorem TableDraft.usual_datum : UsualTable d.datum := by
  refine ⟨nofun, fun y member => ?_⟩
  obtain ⟨m, mem, rfl⟩ := Datum.exists_of_member member
  obtain rfl := List.mem_singleton.1 mem
  intro principal z entry
  obtain ⟨m, mem, rfl⟩ := Datum.exists_of_member entry
  obtain ⟨p, -, rfl⟩ := List.mem_map.1 mem
  exact p.2.usual_datum

end Datum

/-! ### What is made of a draft -/

def holdingsOf (h : List (String × List Level)) : Holdings :=
  .ofList (h.map fun e => (e.1, .ofList e.2))

def GrantsDraft.grants (g : GrantsDraft) : Grants where
  accounts := holdingsOf (g.holdings .account)
  applications := holdingsOf (g.holdings .application)

def TableDraft.table (d : TableDraft) : GrantTable :=
  ⟨.ofList (d.principals.map fun p => (p.1, p.2.grants))⟩

theorem get?_holdingsOf (h : List (String × List Level)) (name : String) (s : Levels) :
    (holdingsOf h).get? name = some s ↔ ∃ levels, LastIn h name levels ∧ .ofList levels = s := by
  unfold holdingsOf
  rw [Table.get?_ofList, lastIn_map]

theorem GrantsDraft.ofKind_grants (g : GrantsDraft) (k : Kind) :
    g.grants.ofKind k = holdingsOf (g.holdings k) := by
  cases k <;> rfl

theorem TableDraft.get?_principals (d : TableDraft) (principal : String) (g : Grants) :
    d.table.principals.get? principal = some g ↔
      ∃ draft, LastIn d.principals principal draft ∧ draft.grants = g := by
  unfold table
  rw [Table.get?_ofList, lastIn_map]

theorem TableDraft.held_table_has (d : TableDraft) (principal : String) (k : Kind) (name : String)
    (l : Level) : (d.table.held principal k name).has l = true ↔ d.Survives ⟨principal, k, name, l⟩ := by
  rw [GrantTable.held_has_iff]
  constructor
  · rintro ⟨g, s, found, entered, has⟩
    obtain ⟨draft, last, rfl⟩ := (d.get?_principals principal g).1 found
    rw [draft.ofKind_grants] at entered
    obtain ⟨levels, last', rfl⟩ := (get?_holdingsOf _ name s).1 entered
    exact ⟨draft, levels, last, last', (Levels.has_ofList levels l).1 has⟩
  · rintro ⟨draft, levels, last, last', mem⟩
    refine ⟨draft.grants, .ofList levels, ?_, ?_, (Levels.has_ofList levels l).2 mem⟩
    · exact (d.get?_principals principal _).2 ⟨draft, last, rfl⟩
    · rw [draft.ofKind_grants]
      exact (get?_holdingsOf _ name _).2 ⟨levels, last', rfl⟩

theorem TableDraft.full_table_iff (d : TableDraft) : d.table.Full ↔ d.Full := by
  have entered (draft : GrantsDraft) (k : Kind) (name : String) (s : Levels) :
      (draft.grants.ofKind k).get? name = some s ↔
        ∃ levels, LastIn (draft.holdings k) name levels ∧ .ofList levels = s := by
    rw [draft.ofKind_grants, get?_holdingsOf]
  constructor
  · intro full principal draft last
    have found := (d.get?_principals principal _).2 ⟨draft, last, rfl⟩
    constructor
    · obtain ⟨k, name, s, there⟩ := full.principals principal _ found
      obtain ⟨levels, last', -⟩ := (entered draft k name s).1 there
      exact ⟨k, name, levels, last'⟩
    · rintro k name levels last' rfl
      have there := (entered draft k name _).2 ⟨[], last', rfl⟩
      obtain ⟨l, has⟩ := full.names principal _ found k name _ there
      cases (Levels.has_ofList [] l).1 has
  · intro full
    constructor
    · intro principal g found
      obtain ⟨draft, last, rfl⟩ := (d.get?_principals principal g).1 found
      obtain ⟨k, name, levels, last'⟩ := (full principal draft last).1
      exact ⟨k, name, _, (entered draft k name _).2 ⟨levels, last', rfl⟩⟩
    · intro principal g found k name s there
      obtain ⟨draft, last, rfl⟩ := (d.get?_principals principal g).1 found
      obtain ⟨levels, last', rfl⟩ := (entered draft k name s).1 there
      obtain ⟨l, mem⟩ := List.exists_mem_of_ne_nil levels ((full principal draft last).2 k name levels last')
      exact ⟨l, (Levels.has_ofList levels l).2 mem⟩

/-! ### What survives -/

/-- All that is listed for anyone, also what a later entry overrides. -/
def TableDraft.listed (d : TableDraft) : List Grant :=
  d.principals.flatMap fun p => [Kind.account, .application].flatMap fun k =>
    (p.2.holdings k).flatMap fun e => e.2.map fun l => ⟨p.1, k, e.1, l⟩

theorem LastIn.mem {κ α : Type} {l : List (κ × α)} {k : κ} {v : α} (h : LastIn l k v) : (k, v) ∈ l := by
  obtain ⟨before, after, rfl, -⟩ := h
  exact List.mem_append_right before List.mem_cons_self

theorem TableDraft.Survives.listed {d : TableDraft} {g : Grant} (h : d.Survives g) : g ∈ d.listed := by
  obtain ⟨draft, levels, last, last', mem⟩ := h
  have kind : g.kind ∈ [Kind.account, .application] := by cases g.kind <;> decide
  refine List.mem_flatMap.2 ⟨_, last.mem, List.mem_flatMap.2 ⟨_, kind, ?_⟩⟩
  exact List.mem_flatMap.2 ⟨_, last'.mem, List.mem_map.2 ⟨g.level, mem, rfl⟩⟩

theorem TableDraft.exists_survivors (d : TableDraft) :
    ∃ gs : List Grant, gs.Nodup ∧ ∀ g, g ∈ gs ↔ d.Survives g := by
  let survivors := d.listed.dedup.filter fun g => (d.table.held g.principal g.kind g.name).has g.level
  refine ⟨survivors, (List.nodup_dedup _).filter _, fun g => ?_⟩
  rw [List.mem_filter, List.mem_dedup, d.held_table_has]
  exact and_iff_right_of_imp TableDraft.Survives.listed

theorem TableDraft.held_table {d : TableDraft} {gs : List Grant} (all : ∀ g, g ∈ gs ↔ d.Survives g)
    (principal : String) (k : Kind) (name : String) :
    d.table.held principal k name = (({} : GrantTable).receiveAll gs).held principal k name := by
  refine Levels.ext_has fun l => ?_
  rw [d.held_table_has, GrantTable.held_receiveAll_has, all]
  refine (or_iff_left fun held => ?_).symm
  obtain ⟨g, s, found, -⟩ := (GrantTable.held_has_iff _ principal k name l).1 held
  cases found

/-- A draft's table and the one that is built of what survives allow the same. -/
theorem TableDraft.allows_table {d : TableDraft} {gs : List Grant} (all : ∀ g, g ∈ gs ↔ d.Survives g)
    (i : Option Identity) (k : Kind) (name : String) (l : Level) :
    d.table.allows i k name l = (({} : GrantTable).receiveAll gs).allows i k name l := by
  cases i with
  | none => rfl
  | some i => rw [GrantTable.allows_some, GrantTable.allows_some, held_table all, held_table all]

/-- They are the same table unless the draft has a last entry that holds nothing. -/
theorem TableDraft.table_eq_iff {d : TableDraft} {gs : List Grant}
    (all : ∀ g, g ∈ gs ↔ d.Survives g) : d.table = ({} : GrantTable).receiveAll gs ↔ d.Full := by
  have built := GrantTable.full_empty.receiveAll gs
  constructor
  · intro same
    exact d.full_table_iff.1 (same ▸ built)
  · intro full
    exact GrantTable.ext_held (d.full_table_iff.2 full) built (held_table all)

end Clearance
