import Mathlib.Data.List.Pairwise
import Clearance.Proofs.Json.Forms

/-!
Records that are made of independent parts. Each member of an object sets the part that it names, and a
part that no member names stays as it is at the start.
-/
namespace Clearance.Json

variable {σ : Type}

/-- A field with the forms of the values that it takes, and with the part of a record that it sets. -/
structure Record.Part (σ : Type) where
  Value : Type
  name : String
  item : Reader Value
  form : Value → Datum → Prop
  strict : Strict item
  reads : ∀ {a y}, form a y → Reads item y a
  get : σ → Value
  set : Value → σ → σ
  get_set : ∀ a v, get (set a v) = a

namespace Record.Part

def field (p : Record.Part σ) : Field σ := .of p.name p.item p.set

/-- The part is what its one member says, or there is none and the part is what it was. -/
def Overlaid (p : Record.Part σ) (l : List (String × Datum)) (start v : σ) : Prop :=
  AtMostOne l p.name (p.get v = p.get start) (p.form (p.get v))

/-- All that is given for the part is of one of its forms. -/
def Typed (p : Record.Part σ) (l : List (String × Datum)) : Prop :=
  ∀ y, (p.name, y) ∈ l → ∃ a, p.form a y

/-- Setting one part leaves the other as it is. -/
structure Apart (p q : Record.Part σ) : Prop where
  left : ∀ a v, p.get (q.set a v) = p.get v
  right : ∀ a v, q.get (p.set a v) = q.get v

instance : Std.Symm (Record.Part.Apart (σ := σ)) := ⟨fun _ _ h => ⟨h.right, h.left⟩⟩

def Once (p : Record.Part σ) (l : List (String × Datum)) : Prop := (valuesOf p.name l).length ≤ 1

end Record.Part

/-- A record has these parts, and no others. -/
structure Record.Parted (r : Record σ) (parts : List (Record.Part σ)) : Prop where
  fields : r.fields = parts.map Record.Part.field
  distinct : (parts.map Record.Part.name).Nodup
  apart : parts.Pairwise Record.Part.Apart
  ext : ∀ v w, (∀ p ∈ parts, p.get v = p.get w) → v = w

namespace Record.Parted
variable {r : Record σ} {parts : List (Record.Part σ)} {l : List (String × Datum)}

theorem of_field? (parted : r.Parted parts) {name : String} {f : Field σ}
    (found : r.field? name = some f) : ∃ p ∈ parts, p.name = name ∧ f = p.field := by
  obtain ⟨mem, rfl⟩ := Record.of_field? found
  rw [parted.fields] at mem
  obtain ⟨p, known, rfl⟩ := List.mem_map.1 mem
  exact ⟨p, known, rfl, rfl⟩

theorem mem_fields (parted : r.Parted parts) {p : Record.Part σ} (mem : p ∈ parts) :
    p.field ∈ r.fields := by
  rw [parted.fields]
  exact List.mem_map_of_mem mem

theorem knows (parted : r.Parted parts) {p : Record.Part σ} (mem : p ∈ parts) : r.knows p.name = true :=
  knows_of_mem (parted.mem_fields mem)

theorem eq_of_name (parted : r.Parted parts) {p q : Record.Part σ} (hp : p ∈ parts) (hq : q ∈ parts)
    (same : p.name = q.name) : p = q := List.inj_on_of_nodup_map parted.distinct hp hq same

theorem field? (parted : r.Parted parts) {p : Record.Part σ} (mem : p ∈ parts) :
    r.field? p.name = some p.field := by
  obtain ⟨f, found⟩ := Option.isSome_iff_exists.1 (parted.knows mem)
  obtain ⟨q, known, named, rfl⟩ := parted.of_field? found
  rw [found, parted.eq_of_name known mem named]

theorem once_iff (parted : r.Parted parts) :
    ((l.map Prod.fst).filter r.knows).Nodup ↔ ∀ p ∈ parts, p.Once l := by
  rw [Record.once_iff]
  constructor
  · intro once p mem
    exact once p.name (parted.knows mem)
  · intro once name known
    obtain ⟨f, found⟩ := Option.isSome_iff_exists.1 known
    obtain ⟨p, mem, rfl, -⟩ := parted.of_field? found
    exact once p mem

/-- Sets the part of a name as it is in `made`. -/
def change (parts : List (Record.Part σ)) (made : σ) (name : String) (v : σ) : σ :=
  match parts.find? (·.name == name) with
  | some p => p.set (p.get made) v
  | none => v

theorem find? (parted : r.Parted parts) {p : Record.Part σ} (mem : p ∈ parts) :
    parts.find? (·.name == p.name) = some p := by
  have found : (parts.find? (·.name == p.name)).isSome = true :=
    List.find?_isSome.2 ⟨p, mem, beq_self_eq_true _⟩
  obtain ⟨q, found⟩ := Option.isSome_iff_exists.1 found
  have same : q.name = p.name := by simpa using List.find?_some found
  rw [found, parted.eq_of_name (List.mem_of_find?_eq_some found) mem same]

theorem get_change (parted : r.Parted parts) {p : Record.Part σ} (mem : p ∈ parts) (made : σ)
    (name : String) (v : σ) : p.get (change parts made name v) = if name = p.name then p.get made else p.get v := by
  unfold change
  by_cases own : name = p.name
  · simp only [own, parted.find? mem, p.get_set, if_true]
  · simp only [own, if_false]
    split
    · rename_i q found
      have named : q.name = name := by simpa using List.find?_some found
      have other : p ≠ q := fun same => own (same ▸ named.symm)
      have apart := parted.apart.forall mem (List.mem_of_find?_eq_some found) other
      exact apart.left _ v
    · rfl

theorem fills (parted : r.Parted parts) {made : σ} (overlaid : ∀ p ∈ parts, p.Overlaid l r.start made) :
    r.Fills (change parts made) l where
  once := parted.once_iff.2 fun p mem => (overlaid p mem).length_le
  given f mem required := by
    rw [parted.fields] at mem
    obtain ⟨p, -, rfl⟩ := List.mem_map.1 mem
    cases required
  reads m mem f found := by
    obtain ⟨p, known, named, rfl⟩ := parted.of_field? found
    have given : (p.name, m.2) ∈ l := named ▸ mem
    have set : change parts made m.1 = p.set (p.get made) := by
      funext v
      simp only [change, ← named, parted.find? known]
    rw [set]
    exact reads_field p.name p.set (p.reads ((overlaid p known).of_mem given))

theorem fill (parted : r.Parted parts) {made : σ} (overlaid : ∀ p ∈ parts, p.Overlaid l r.start made) :
    r.fill (change parts made) l r.start = made := by
  apply parted.ext
  intro p mem
  rw [get_fill p.get (p.get made) (parted.knows mem) (parted.get_change mem made)]
  split
  · rfl
  · rename_i missing
    exact ((overlaid p mem).of_not_mem missing).symm

theorem reads (parted : r.Parted parts) {v : σ} (overlaid : ∀ p ∈ parts, p.Overlaid l r.start v) :
    Reads r.reader (.ofMembers l) v := by
  have read := reads_of_fills (parted.fills overlaid)
  rwa [parted.fill overlaid] at read

/-- Values that are found for each part can be put together. -/
theorem exists_with {P : (p : Record.Part σ) → p.Value → Prop}
    (apart : parts.Pairwise Record.Part.Apart) (start : σ)
    (each : ∀ p ∈ parts, ∃ a, P p a) : ∃ v, ∀ p ∈ parts, P p (p.get v) := by
  induction parts with
  | nil => exact ⟨start, List.forall_mem_nil _⟩
  | cons p parts ih =>
    obtain ⟨others, apart⟩ := List.pairwise_cons.1 apart
    obtain ⟨⟨a, here⟩, later⟩ := List.forall_mem_cons.1 each
    obtain ⟨v, all⟩ := ih apart later
    refine ⟨p.set a v, List.forall_mem_cons.2 ⟨?_, fun q mem => ?_⟩⟩
    · rwa [p.get_set]
    · rw [(others q mem).right]
      exact all q mem

theorem exists_overlaid (parted : r.Parted parts) (once : ∀ p ∈ parts, p.Once l)
    (typed : ∀ p ∈ parts, p.Typed l) (start : σ) : ∃ v, ∀ p ∈ parts, p.Overlaid l start v :=
  exists_with (P := fun p a => AtMostOne l p.name (a = p.get start) (p.form a)) parted.apart start
    fun p mem => AtMostOne.exists_given (once p mem) ⟨_, rfl⟩ (typed p mem)

theorem strict (parted : r.Parted parts) : ∀ f ∈ r.fields, Strict f.read := by
  rw [parted.fields]
  exact List.forall_mem_map.2 fun p _ => strict_field p.strict p.name p.set

/-- An object that was taken has no part's member twice, and each was taken. -/
theorem taken (parted : r.Parted parts) (taken : Takes r.reader (.ofMembers l)) :
    ∀ p ∈ parts, p.Once l ∧ ∀ y, (p.name, y) ∈ l → Takes p.item y := by
  have fits := takes_record taken parted.strict
  intro p mem
  constructor
  · exact parted.once_iff.1 fits.once p mem
  · intro y given
    exact takes_field (fits.takes _ given _ (parted.field? mem))

end Record.Parted
end Clearance.Json
