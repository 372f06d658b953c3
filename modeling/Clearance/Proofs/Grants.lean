import Clearance.Grants
import Clearance.Proofs.Table

/-!
What a grant table allows, read off the levels that it holds for a principal, a kind and a name. A grant
adds to what is held in one place and leaves every other as it is.
-/
namespace Clearance

/-- A level contains itself, and `write` contains `read`. -/
def Level.Contains (l l' : Level) : Prop := l = l' ∨ l = .write ∧ l' = .read

theorem Levels.allows_add (s : Levels) (l l' : Level) :
    (s.add l).allows l' = true ↔ s.allows l' = true ∨ l.Contains l' := by
  unfold Level.Contains
  cases l <;> cases l' <;> simp [add, allows, has]

structure Grant where
  principal : String
  kind : Kind
  name : String
  level : Level
deriving DecidableEq, Repr

/-- Whether a grant allows a level of access to a resource. -/
structure Grant.Covers (g : Grant) (i : Identity) (k : Kind) (name : String) (l : Level) : Prop where
  principal : g.principal = i.principal
  kind : g.kind = k
  name : name = g.name ∨ "*" = g.name
  level : g.level.Contains l

/-- Levels take the place of those that are held for a name. -/
def Grants.enter (g : Grants) (k : Kind) (name : String) (s : Levels) : Grants :=
  match k with
  | .account => { g with accounts := g.accounts.put name s }
  | .application => { g with applications := g.applications.put name s }

theorem Grants.ofKind_enter (g : Grants) (k k' : Kind) (name : String) (s : Levels) :
    (g.enter k name s).ofKind k' =
      if k' = k then (g.ofKind k).put name s else g.ofKind k' := by
  cases k <;> cases k' <;> rfl

theorem Grants.add_eq_enter (g : Grants) (k : Kind) (name : String) (l : Level) :
    g.add k name l = g.enter k name ((((g.ofKind k).get? name).getD {}).add l) := by
  cases k <;> rfl

namespace GrantTable
variable (t : GrantTable)

/-- The levels that are written down for a name, if there are any. -/
def held (principal : String) (k : Kind) (name : String) : Levels :=
  ((((t.principals.get? principal).getD {}).ofKind k).get? name).getD {}

/-- Levels take the place of those that are held for a name, be it as a new entry. -/
def enter (principal : String) (k : Kind) (name : String) (s : Levels) : GrantTable :=
  ⟨t.principals.put principal (((t.principals.get? principal).getD {}).enter k name s)⟩

theorem held_enter (principal principal' : String) (k k' : Kind) (name name' : String) (s : Levels) :
    (t.enter principal k name s).held principal' k' name' =
      if principal' = principal ∧ k' = k ∧ name' = name then s else t.held principal' k' name' := by
  unfold held enter
  rw [Table.get?_put]
  by_cases same : principal' = principal
  · rw [if_pos same, Option.getD_some, Grants.ofKind_enter]
    by_cases kinds : k' = k
    · rw [if_pos kinds, Table.get?_put]
      by_cases names : name' = name <;> simp [same, kinds, names]
    · simp [same, kinds]
  · simp [same]

theorem grant_eq_enter (principal : String) (k : Kind) (name : String) (l : Level) :
    t.grant principal k name l = t.enter principal k name ((t.held principal k name).add l) := by
  unfold grant enter
  rw [Grants.add_eq_enter]
  rfl

theorem allows_some (i : Identity) (k : Kind) (name : String) (l : Level) :
    t.allows (some i) k name l =
      ((t.held i.principal k name).allows l || (t.held i.principal k "*").allows l) := by
  simp [allows, Grants.allows, held]

def receive (g : Grant) : GrantTable := t.grant g.principal g.kind g.name g.level

def receiveAll (gs : List Grant) : GrantTable := gs.foldl receive t

theorem held_receive_allows (g : Grant) (principal : String) (k : Kind) (name : String) (l : Level) :
    ((t.receive g).held principal k name).allows l = true ↔
      (t.held principal k name).allows l = true ∨
        principal = g.principal ∧ k = g.kind ∧ name = g.name ∧ g.level.Contains l := by
  unfold receive
  rw [grant_eq_enter, held_enter]
  split
  · rename_i here
    obtain ⟨rfl, rfl, rfl⟩ := here
    simp [Levels.allows_add]
  · rename_i elsewhere
    refine (or_iff_left ?_).symm
    rintro ⟨principals, kinds, names, _⟩
    exact elsewhere ⟨principals, kinds, names⟩

theorem allows_receive (g : Grant) (i : Identity) (k : Kind) (name : String) (l : Level) :
    (t.receive g).allows (some i) k name l = true ↔
      t.allows (some i) k name l = true ∨ g.Covers i k name l := by
  rw [allows_some, allows_some, Bool.or_eq_true, Bool.or_eq_true, held_receive_allows,
    held_receive_allows]
  constructor
  · rintro ((old | ⟨principals, kinds, names, level⟩) | (old | ⟨principals, kinds, names, level⟩))
    · exact .inl (.inl old)
    · exact .inr ⟨principals.symm, kinds.symm, .inl names, level⟩
    · exact .inl (.inr old)
    · exact .inr ⟨principals.symm, kinds.symm, .inr names, level⟩
  · rintro ((old | old) | ⟨principals, kinds, names | names, level⟩)
    · exact .inl (.inl old)
    · exact .inr (.inl old)
    · exact .inl (.inr ⟨principals.symm, kinds.symm, names, level⟩)
    · exact .inr (.inr ⟨principals.symm, kinds.symm, names, level⟩)

/-- After any grants, that is allowed which was before and what one of the grants covers. -/
theorem allows_receiveAll (gs : List Grant) (i : Identity) (k : Kind) (name : String) (l : Level) :
    (t.receiveAll gs).allows (some i) k name l = true ↔
      t.allows (some i) k name l = true ∨ ∃ g ∈ gs, g.Covers i k name l := by
  unfold receiveAll
  induction gs generalizing t with
  | nil => simp
  | cons g gs ih =>
    rw [List.foldl_cons, ih, allows_receive, or_assoc]
    simp only [List.mem_cons, exists_eq_or_imp]

theorem allows_of_allows (gs : List Grant) {i : Option Identity} {k : Kind} {name : String}
    {l : Level} (before : t.allows i k name l = true) :
    (t.receiveAll gs).allows i k name l = true := by
  cases i with
  | none => cases before
  | some i => exact (t.allows_receiveAll gs i k name l).2 (.inl before)

end GrantTable
end Clearance
