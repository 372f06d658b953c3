import Mathlib.Data.List.Forall2
import Clearance.Text.Ascii

/-!
Letter case in the ASCII range, as a relation between a character and its capital, and between texts.
-/
namespace Clearance.Text

/-- A letter from `a` to `z` with its capital, or any other character with itself. -/
inductive Raised : Char → Char → Prop where
  | letter {n : Nat} : n < 26 → Raised (Char.ofNat ('a'.toNat + n)) (Char.ofNat ('A'.toNat + n))
  | other {c : Char} : ¬ ('a' ≤ c ∧ c ≤ 'z') → Raised c c

def RaisedTo (s t : String) : Prop := List.Forall₂ Raised s.toList t.toList

def Capital (c : Char) : Prop := 'A' ≤ c ∧ c ≤ 'Z'

instance : DecidablePred Capital := fun c => inferInstanceAs (Decidable ('A' ≤ c ∧ c ≤ 'Z'))

/-- The characters from one to another, counted from the first. -/
theorem exists_ofNat {first last c : Char} (h : first ≤ c ∧ c ≤ last) :
    ∃ n ≤ last.toNat - first.toNat, c = Char.ofNat (first.toNat + n) := by
  have above : first.toNat ≤ c.toNat := h.1
  have below : c.toNat ≤ last.toNat := h.2
  refine ⟨c.toNat - first.toNat, Nat.sub_le_sub_right below _, ?_⟩
  rw [Nat.add_sub_cancel' above, Char.ofNat_toNat]

theorem toUpper_letter :
    ∀ n < 26, (Char.ofNat ('a'.toNat + n)).toUpper = Char.ofNat ('A'.toNat + n) := by decide

theorem toLower_letter :
    ∀ n < 26, (Char.ofNat ('A'.toNat + n)).toLower = Char.ofNat ('a'.toNat + n) := by decide

theorem raised_iff {c d : Char} : Raised c d ↔ c.toUpper = d := by
  constructor
  · rintro (small | other)
    · exact toUpper_letter _ small
    · exact dif_neg other
  · rintro rfl
    by_cases small : 'a' ≤ c ∧ c ≤ 'z'
    · obtain ⟨n, letter, rfl⟩ := exists_ofNat small
      replace letter : n < 26 := Nat.lt_succ_of_le letter
      rw [toUpper_letter n letter]
      exact .letter letter
    · have same : c.toUpper = c := dif_neg small
      rw [same]
      exact .other small

theorem raised_capital {c d : Char} (h : Capital d) : Raised c d ↔ c = d ∨ c = d.toLower := by
  constructor
  · rintro (small | other)
    · exact .inr (toLower_letter _ small).symm
    · exact .inl rfl
  · rintro (rfl | rfl)
    · refine .other fun small => ?_
      have apart : ¬ 'a' ≤ 'Z' := by decide
      exact apart (Char.le_trans small.1 h.2)
    · obtain ⟨n, letter, rfl⟩ := exists_ofNat h
      replace letter : n < 26 := Nat.lt_succ_of_le letter
      rw [toLower_letter n letter]
      exact .letter letter

theorem raisedTo_iff {s t : String} : RaisedTo s t ↔ upper s = t := by
  have raised : Raised = fun c d => c.toUpper = d := funext₂ fun _ _ => propext raised_iff
  unfold RaisedTo upper
  rw [raised, ← List.forall₂_map_left_iff, List.forall₂_eq_eq_eq, ← String.toList_inj,
    String.toList_ofList]

theorem toList_upper (s : String) : (upper s).toList = s.toList.map Char.toUpper := by
  rw [upper, String.toList_ofList]

theorem upper_append (s t : String) : upper (s ++ t) = upper s ++ upper t := by
  simp only [upper, String.toList_append, List.map_append, String.ofList_append]

theorem raised_capitals {l l' : List Char} (h : ∀ d ∈ l', Capital d) :
    List.Forall₂ Raised l l' ↔ List.Forall₂ (fun c d => c = d ∨ c = d.toLower) l l' := by
  induction l' generalizing l with
  | nil => simp
  | cons d l' ih =>
    obtain ⟨here, later⟩ := List.forall_mem_cons.1 h
    cases l with
    | nil => simp
    | cons c l => rw [List.forall₂_cons, List.forall₂_cons, raised_capital here, ih later]

theorem raisedTo_self {s : String} (h : ∀ c ∈ s.toList, Capital c) : RaisedTo s s :=
  List.forall₂_same.2 fun c mem => (raised_capital (h c mem)).2 (.inl rfl)

theorem Raised.toLower_eq {c d : Char} (h : Raised c d) : c.toLower = d.toLower := by
  have letters : ∀ n < 26, (Char.ofNat ('a'.toNat + n)).toLower = (Char.ofNat ('A'.toNat + n)).toLower := by
    decide
  cases h with
  | letter small => exact letters _ small
  | other => rfl

theorem RaisedTo.lower_eq {s t : String} (h : RaisedTo s t) : lower s = lower t := by
  have same : s.toList.map Char.toLower = t.toList.map Char.toLower :=
    List.forall₂_eq_eq_eq ▸
      List.forall₂_map_left_iff.2 (List.forall₂_map_right_iff.2 (h.imp fun _ _ => Raised.toLower_eq))
  exact congrArg String.ofList same

/-! ### Letters and digits -/

theorem isAlpha_iff (c : Char) : c.isAlpha = true ↔ Capital c ∨ ('a' ≤ c ∧ c ≤ 'z') := by
  have upper : c.isUpper = true ↔ Capital c := decide_eq_true_iff
  have lower : c.isLower = true ↔ 'a' ≤ c ∧ c ≤ 'z' :=
    Bool.and_eq_true_iff.trans (and_congr decide_eq_true_iff decide_eq_true_iff)
  exact Bool.or_eq_true_iff.trans (or_congr upper lower)

theorem isDigit_iff (c : Char) : c.isDigit = true ↔ '0' ≤ c ∧ c ≤ '9' :=
  Bool.and_eq_true_iff.trans (and_congr decide_eq_true_iff decide_eq_true_iff)

theorem isAlphanum_iff (c : Char) :
    c.isAlphanum = true ↔ (Capital c ∨ ('a' ≤ c ∧ c ≤ 'z')) ∨ ('0' ≤ c ∧ c ≤ '9') :=
  Bool.or_eq_true_iff.trans (or_congr (isAlpha_iff c) (isDigit_iff c))

theorem Capital.isAlpha {c : Char} (h : Capital c) : c.isAlpha = true := (isAlpha_iff c).2 (.inl h)

theorem isAlpha_of_toUpper {c : Char} (h : c.toUpper.isAlpha = true) : c.isAlpha = true := by
  unfold Char.toUpper at h
  split at h
  · rename_i small
    exact (isAlpha_iff c).2 (.inr small)
  · exact h

theorem isDigit_of_isAlpha {c : Char} (h : c.isAlpha = true) : c.isDigit = false := by
  refine Bool.eq_false_iff.2 fun digit => ?_
  have small := ((isDigit_iff c).1 digit).2
  rcases (isAlpha_iff c).1 h with letter | letter
  · exact absurd (Char.le_trans letter.1 small) (by decide)
  · exact absurd (Char.le_trans letter.1 small) (by decide)

end Clearance.Text
