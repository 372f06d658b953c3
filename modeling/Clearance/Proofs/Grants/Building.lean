import Clearance.Proofs.Grants

/-!
Tables that are built grant by grant. Such a table holds the levels that were granted and no others, and
it has no entry without a level, so it is known by what it holds.
-/
namespace Clearance

namespace Levels

theorem has_empty (l : Level) : ({} : Levels).has l = false := by cases l <;> rfl

theorem has_add (s : Levels) (l l' : Level) :
    (s.add l).has l' = true ↔ l' = l ∨ s.has l' = true := by
  cases l <;> cases l' <;> simp [add, has]

theorem has_ofList (ls : List Level) (l : Level) : (ofList ls).has l = true ↔ l ∈ ls := by
  have added (s : Levels) : (ls.foldl add s).has l = true ↔ l ∈ ls ∨ s.has l = true := by
    induction ls generalizing s with
    | nil => simp
    | cons l' ls ih => rw [List.foldl_cons, ih, has_add, List.mem_cons, or_left_comm, or_assoc]
  rw [ofList, added, has_empty]
  simp

theorem ext_has {s s' : Levels} (same : ∀ l, s.has l = true ↔ s'.has l = true) : s = s' := by
  have equal (l : Level) : s.has l = s'.has l := Bool.eq_iff_iff.2 (same l)
  cases s
  cases s'
  exact (Levels.mk.injEq ..).mpr ⟨equal .read, equal .write, equal .execute, equal .create⟩

end Levels

namespace Grants

theorem get?_empty (k : Kind) (name : String) : (({} : Grants).ofKind k).get? name = none := by
  cases k <;> rfl

theorem ext_ofKind {g g' : Grants} (same : ∀ k, g.ofKind k = g'.ofKind k) : g = g' := by
  cases g
  cases g'
  exact (Grants.mk.injEq ..).mpr ⟨same .account, same .application⟩

end Grants

namespace GrantTable

theorem held_has_iff (t : GrantTable) (principal : String) (k : Kind) (name : String) (l : Level) :
    (t.held principal k name).has l = true ↔ ∃ g s, t.principals.get? principal = some g ∧
      (g.ofKind k).get? name = some s ∧ s.has l = true := by
  unfold held
  cases t.principals.get? principal with
  | none => simp [Grants.get?_empty, Levels.has_empty]
  | some g =>
    rw [Option.getD_some]
    cases found : (g.ofKind k).get? name with
    | none => simp [found, Levels.has_empty]
    | some s => simp [found]

/-- Every principal has a name in its grants, and every name a level. -/
structure Full (t : GrantTable) : Prop where
  principals : ∀ principal g, t.principals.get? principal = some g →
    ∃ k name s, (g.ofKind k).get? name = some s
  names : ∀ principal g, t.principals.get? principal = some g →
    ∀ k name s, (g.ofKind k).get? name = some s → ∃ l, s.has l = true

theorem Full.holds {t : GrantTable} (full : t.Full) {principal : String} {g : Grants}
    (found : t.principals.get? principal = some g) :
    ∃ k name l, (t.held principal k name).has l = true := by
  obtain ⟨k, name, s, entered⟩ := full.principals principal g found
  obtain ⟨l, has⟩ := full.names principal g found k name s entered
  exact ⟨k, name, l, (t.held_has_iff principal k name l).2 ⟨g, s, found, entered, has⟩⟩

section Same
variable {t t' : GrantTable} (full : t.Full)
  (same : ∀ principal k name, t.held principal k name = t'.held principal k name)
include full same

/-- Whoever is entered in a full table is entered wherever the same is held. -/
theorem Full.exists_principal {principal : String} {g : Grants}
    (found : t.principals.get? principal = some g) : ∃ g', t'.principals.get? principal = some g' := by
  obtain ⟨k, name, l, held⟩ := full.holds found
  rw [same] at held
  obtain ⟨g', -, found', -⟩ := (t'.held_has_iff principal k name l).1 held
  exact ⟨g', found'⟩

theorem Full.get?_of_get? {principal : String} {g g' : Grants}
    (found : t.principals.get? principal = some g) (found' : t'.principals.get? principal = some g')
    {k : Kind} {name : String} {s : Levels} (entered : (g.ofKind k).get? name = some s) :
    (g'.ofKind k).get? name = some s := by
  have held := same principal k name
  unfold GrantTable.held at held
  rw [found, found', Option.getD_some, Option.getD_some, entered, Option.getD_some] at held
  cases entered' : (g'.ofKind k).get? name with
  | some s' =>
    rw [entered', Option.getD_some] at held
    rw [held]
  | none =>
    rw [entered', Option.getD_none] at held
    obtain ⟨l, has⟩ := full.names principal g found k name s entered
    rw [held, Levels.has_empty] at has
    cases has

end Same

/-- A full table is known by what it holds. -/
theorem ext_held {t t' : GrantTable} (full : t.Full) (full' : t'.Full)
    (same : ∀ principal k name, t.held principal k name = t'.held principal k name) : t = t' := by
  have same' (principal : String) (k : Kind) (name : String) := (same principal k name).symm
  refine congrArg GrantTable.mk (Table.ext_get? fun principal => Option.ext fun g => ?_)
  constructor
  all_goals intro found
  · obtain ⟨g', found'⟩ := full.exists_principal same found
    have grants : g = g' := Grants.ext_ofKind fun k => Table.ext_get? fun name => Option.ext fun s =>
      ⟨full.get?_of_get? same found found', full'.get?_of_get? same' found' found⟩
    exact grants ▸ found'
  · obtain ⟨g', found'⟩ := full'.exists_principal same' found
    have grants : g = g' := Grants.ext_ofKind fun k => Table.ext_get? fun name => Option.ext fun s =>
      ⟨full'.get?_of_get? same' found found', full.get?_of_get? same found' found⟩
    exact grants ▸ found'

theorem full_empty : ({} : GrantTable).Full := ⟨nofun, nofun⟩

theorem Full.enter {t : GrantTable} (full : t.Full) (principal : String) (k : Kind) (name : String)
    {s : Levels} {l : Level} (has : s.has l = true) : (t.enter principal k name s).Full where
  principals principal' g found := by
    unfold GrantTable.enter at found
    rw [Table.get?_put] at found
    split at found
    · obtain rfl := Option.some.inj found
      refine ⟨k, name, s, ?_⟩
      rw [Grants.ofKind_enter, if_pos rfl, Table.get?_put, if_pos rfl]
    · exact full.principals principal' g found
  names principal' g found k' name' s' entered := by
    unfold GrantTable.enter at found
    rw [Table.get?_put] at found
    split at found
    · obtain rfl := Option.some.inj found
      have old (before : (((t.principals.get? principal).getD {}).ofKind k').get? name' = some s') :
          ∃ l, s'.has l = true := by
        cases there : t.principals.get? principal with
        | none =>
          rw [there, Option.getD_none, Grants.get?_empty] at before
          cases before
        | some g =>
          rw [there, Option.getD_some] at before
          exact full.names principal g there k' name' s' before
      rw [Grants.ofKind_enter] at entered
      split at entered
      · rename_i kinds
        subst kinds
        rw [Table.get?_put] at entered
        split at entered
        · obtain rfl := Option.some.inj entered
          exact ⟨l, has⟩
        · exact old entered
      · exact old entered
    · exact full.names principal' g found k' name' s' entered

theorem Full.receiveAll {t : GrantTable} (full : t.Full) (gs : List Grant) : (t.receiveAll gs).Full := by
  unfold GrantTable.receiveAll
  induction gs generalizing t with
  | nil => exact full
  | cons g gs ih =>
    refine ih ?_
    unfold receive
    rw [grant_eq_enter]
    exact full.enter g.principal g.kind g.name ((Levels.has_add _ g.level g.level).2 (.inl rfl))

theorem held_receive_has (t : GrantTable) (g : Grant) (principal : String) (k : Kind) (name : String)
    (l : Level) : ((t.receive g).held principal k name).has l = true ↔
      g = ⟨principal, k, name, l⟩ ∨ (t.held principal k name).has l = true := by
  obtain ⟨principal', k', name', l'⟩ := g
  unfold receive
  rw [grant_eq_enter, held_enter]
  split
  · rename_i here
    obtain ⟨rfl, rfl, rfl⟩ := here
    rw [Levels.has_add]
    simp [@eq_comm _ l]
  · rename_i elsewhere
    refine (or_iff_right ?_).symm
    rintro ⟨⟩
    exact elsewhere ⟨rfl, rfl, rfl⟩

/-- After any grants, those levels are held that were before and those that were granted. -/
theorem held_receiveAll_has (t : GrantTable) (gs : List Grant) (principal : String) (k : Kind)
    (name : String) (l : Level) : ((t.receiveAll gs).held principal k name).has l = true ↔
      ⟨principal, k, name, l⟩ ∈ gs ∨ (t.held principal k name).has l = true := by
  unfold receiveAll
  induction gs generalizing t with
  | nil => simp
  | cons g gs ih =>
    rw [List.foldl_cons, ih, held_receive_has, List.mem_cons, or_left_comm, or_assoc, eq_comm]

theorem allows_of_absent {t : GrantTable} {i : Identity} (absent : t.principals.get? i.principal = none)
    (k : Kind) (name : String) (l : Level) : t.allows (some i) k name l = false := by
  simp only [allows, absent]
  cases k <;> cases l <;> rfl

theorem not_held_empty (principal : String) (k : Kind) (name : String) (l : Level) :
    ¬ (({} : GrantTable).held principal k name).has l = true := by
  intro has
  obtain ⟨g, s, found, -⟩ := (held_has_iff _ principal k name l).1 has
  cases found

/-- What was granted can be read off the table. -/
theorem mem_iff_held (gs : List Grant) (g : Grant) :
    g ∈ gs ↔ ((({} : GrantTable).receiveAll gs).held g.principal g.kind g.name).has g.level = true := by
  have held := held_receiveAll_has {} gs g.principal g.kind g.name g.level
  simp [held, not_held_empty]

/-- From the empty table on, exactly that is allowed which one of the grants covers: for its principal and
its kind, under its name or any where it has the wildcard's, at its level or at `read` where it has `write`.
Two tables that are built by grants are equal exactly if the same was granted, in whatever order and however
often. -/
theorem built_receiveAll :
    (∀ (gs : List Grant) (i : Option Identity) (k : Kind) (name : String) (l : Level),
      (({} : GrantTable).receiveAll gs).allows i k name l = true ↔
        ∃ caller, i = some caller ∧ ∃ g ∈ gs, g.Covers caller k name l) ∧
    ∀ gs gs' : List Grant, ({} : GrantTable).receiveAll gs = ({} : GrantTable).receiveAll gs' ↔
      ∀ g, g ∈ gs ↔ g ∈ gs' := by
  constructor
  · intro gs i k name l
    cases i with
    | none => simp [allows]
    | some caller =>
      have unknown : ({} : GrantTable).principals.get? caller.principal = none := rfl
      simp [allows_receiveAll, allows_of_absent unknown]
  · intro gs gs'
    constructor
    · intro same g
      rw [mem_iff_held gs, mem_iff_held gs', same]
    · intro same
      have full := full_empty.receiveAll gs
      have full' := full_empty.receiveAll gs'
      apply ext_held full full'
      intro principal k name
      apply Levels.ext_has
      intro l
      have granted := same ⟨principal, k, name, l⟩
      rwa [mem_iff_held gs, mem_iff_held gs'] at granted

/-- A repeated grant and a change of order leave no trace, another level does. -/
example : let g : Grant := ⟨"u", .account, "a", .write⟩
    let g' : Grant := ⟨"u", .application, "*", .create⟩
    ({} : GrantTable).receiveAll [g, g', g] = ({} : GrantTable).receiveAll [g', g] ∧
      ({} : GrantTable).receiveAll [g, ⟨"u", .account, "a", .read⟩] ≠ ({} : GrantTable).receiveAll [g] := by
  decide +kernel

end GrantTable
end Clearance
