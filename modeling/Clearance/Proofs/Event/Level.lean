import Clearance.Event.Filter
import Clearance.Proofs.Text.Ascii

/-!
Filters that are no more than a level, by its name or by its number. Such a filter lets through what is
grave enough, wherever it comes from.
-/
namespace Clearance

namespace Threshold

/-- How far a threshold goes; at 0 nothing is let through. -/
def rank : Threshold → Nat
  | none => 0
  | some last => last.rank

theorem admits_iff (t : Threshold) (s : Severity) : t.admits s = true ↔ s.rank ≤ t.rank := by
  cases t with
  | none => cases s <;> decide
  | some last => exact decide_eq_true_iff

/-- The name of a threshold. -/
def title : Threshold → String
  | none => "OFF"
  | some .error => "ERROR"
  | some .warn => "WARN"
  | some .info => "INFO"
  | some .debug => "DEBUG"
  | some .trace => "TRACE"

theorem capital_title (t : Threshold) : ∀ c ∈ t.title.toList, Text.Capital c := by
  rcases t with _ | _ | _ | _ | _ | _ <;> simp [title, Text.Capital]

theorem title_ne_nil (t : Threshold) : t.title.toList ≠ [] := by
  rcases t with _ | _ | _ | _ | _ | _ <;> decide

theorem isDigit_digitChar_rank (t : Threshold) : (Nat.digitChar t.rank).isDigit = true := by
  rcases t with _ | _ | _ | _ | _ | _ <;> decide

end Threshold

namespace Text

theorem isBlank_of_isAlphanum {c : Char} (h : c.isAlphanum = true) : isBlank c = false := by
  have ranges : ((65 ≤ c.toNat ∧ c.toNat ≤ 90) ∨ 97 ≤ c.toNat ∧ c.toNat ≤ 122) ∨
    48 ≤ c.toNat ∧ c.toNat ≤ 57 := (isAlphanum_iff c).1 h
  simp only [isBlank, Bool.or_eq_false_iff, Bool.and_eq_false_iff, decide_eq_false_iff_not,
    beq_eq_false_iff_ne]
  omega

theorem trim_of_unblank {s : List Char} (unblank : ∀ c ∈ s, isBlank c = false) : trim s = s := by
  have kept {l : List Char} (unblank : ∀ c ∈ l, isBlank c = false) : l.dropWhile isBlank = l := by
    cases l with
    | nil => rfl
    | cons c l => rw [List.dropWhile_cons_of_neg (by simp [unblank c (List.mem_cons_self ..)])]
  unfold trim trimEnd
  rw [kept unblank, kept fun c mem => unblank c (List.mem_reverse.1 mem), List.reverse_reverse]

end Text

/-- A text that is a level by itself: the name in letters of either case, or the number, which may have
zeros before it. -/
inductive IsLevel (text : String) (t : Threshold) : Prop where
  | name : Text.RaisedTo text t.title → IsLevel text t
  | number (zeros : Nat) : text.toList = List.replicate zeros '0' ++ [Nat.digitChar t.rank] →
    IsLevel text t

namespace Threshold
variable {text : String} {t : Threshold}

theorem isAlpha_of_raisedTo (raised : Text.RaisedTo text t.title) :
    ∀ c ∈ text.toList, c.isAlpha = true := by
  intro c mem
  have upper : c.toUpper ∈ (Text.upper text).toList := by
    rw [Text.toList_upper]
    exact List.mem_map_of_mem mem
  rw [Text.raisedTo_iff.1 raised] at upper
  exact Text.isAlpha_of_toUpper (t.capital_title _ upper).isAlpha

/-- The number that digits stand for. -/
def value (cs : List Char) : Nat := cs.foldl (fun n d => 10 * n + (d.toNat - '0'.toNat)) 0

theorem parse?_cons {c : Char} (unsigned : c ≠ '+') (cs : List Char) :
    parse? (c :: cs) =
      (if (c :: cs).all Char.isDigit = true then (names[value (c :: cs)]?).map Prod.snd else none).or
        (names.lookup (Text.lower (String.ofList (c :: cs)))) := by
  unfold parse? value
  split
  · rename_i signed
    exact absurd (List.cons.inj signed).1 unsigned
  · simp only [ne_eq, reduceCtorEq, not_false_eq_true, true_and]

theorem parse?_name (raised : Text.RaisedTo text t.title) : parse? text.toList = some t := by
  have alpha := isAlpha_of_raisedTo raised
  have named : names.lookup (Text.lower text) = some t := by
    rw [raised.lower_eq]
    rcases t with _ | _ | _ | _ | _ | _ <;> decide
  obtain ⟨c, cs, split⟩ : ∃ c cs, text.toList = c :: cs := by
    refine List.exists_cons_of_ne_nil fun empty => t.title_ne_nil ?_
    rw [← Text.raisedTo_iff.1 raised, Text.toList_upper, empty]
    rfl
  have letter : c.isAlpha = true := alpha c (split ▸ List.mem_cons_self ..)
  have unsigned : c ≠ '+' := by
    rintro rfl
    cases letter
  have whole : String.ofList (c :: cs) = text := by rw [← split, String.ofList_toList]
  rw [split, parse?_cons unsigned, whole, named]
  simp [Text.isDigit_of_isAlpha letter]

theorem value_digit (zeros : Nat) (t : Threshold) :
    value (List.replicate zeros '0' ++ [Nat.digitChar t.rank]) = t.rank := by
  induction zeros with
  | zero => rcases t with _ | _ | _ | _ | _ | _ <;> rfl
  | succ zeros ih => exact ih

theorem parse?_number (zeros : Nat)
    (digits : text.toList = List.replicate zeros '0' ++ [Nat.digitChar t.rank]) :
    parse? text.toList = some t := by
  have all : text.toList.all Char.isDigit = true := by
    rw [digits]
    simp [t.isDigit_digitChar_rank]
  have number : value text.toList = t.rank := by rw [digits, value_digit]
  have placed : (names[t.rank]?).map Prod.snd = some t := by
    rcases t with _ | _ | _ | _ | _ | _ <;> rfl
  obtain ⟨c, cs, split⟩ : ∃ c cs, text.toList = c :: cs :=
    List.exists_cons_of_ne_nil (by simp [digits])
  rw [split] at all number ⊢
  have unsigned : c ≠ '+' := by
    rintro rfl
    cases all
  rw [parse?_cons unsigned, if_pos all, number, placed]
  rfl

end Threshold

namespace IsLevel
variable {text : String} {t : Threshold}

theorem parse?_eq (level : IsLevel text t) : Threshold.parse? text.toList = some t := by
  cases level with
  | name raised => exact Threshold.parse?_name raised
  | number zeros digits => exact Threshold.parse?_number zeros digits

theorem isAlphanum (level : IsLevel text t) : ∀ c ∈ text.toList, c.isAlphanum = true := by
  intro c mem
  cases level with
  | name raised => simp [Char.isAlphanum, Threshold.isAlpha_of_raisedTo raised c mem]
  | number zeros digits =>
    rw [digits, List.mem_append, List.mem_singleton] at mem
    rcases mem with zero | rfl
    · rw [List.eq_of_mem_replicate zero]
      rfl
    · simp [Char.isAlphanum, t.isDigit_digitChar_rank]

theorem ne_nil (level : IsLevel text t) : text.toList ≠ [] := by
  intro empty
  have read := level.parse?_eq
  rw [empty] at read
  cases read

end IsLevel

namespace Event

namespace Directive

theorem startsName_of_isAlphanum {c : Char} (h : c.isAlphanum = true) : startsName c = true := by
  unfold Char.isAlphanum at h
  simp only [Bool.or_eq_true] at h
  rcases h with letter | digit <;> simp [startsName, Text.isAlphanumeric, Text.isLetter, *]

theorem steps_name {cut : Nat → Nat → List Char} {first : Nat} {d : Directive} {cs : List Char}
    (plain : ∀ c ∈ cs, c ≠ '=' ∧ c ≠ '[') (i : Nat) :
    steps cut i cs (.name first, d) = some (.name first, d) := by
  induction cs generalizing i with
  | nil => rfl
  | cons c cs ih =>
    obtain ⟨level, span⟩ := plain c (List.mem_cons_self ..)
    have stays : step cut i c (.name first, d) = some (.name first, d) := by
      simp [step, level, span]
    rw [steps, stays, Option.bind_some]
    exact ih (fun c mem => plain c (List.mem_cons_of_mem _ mem)) _

theorem parse?_of_isLevel {text : String} {t : Threshold} (level : IsLevel text t) :
    parse? text.toList = some { level := t } := by
  have alphanum := level.isAlphanum
  have unbroken : ∀ c ∈ text.toList, c ≠ '=' ∧ c ≠ '[' := by
    intro c mem
    have := alphanum c mem
    constructor <;> rintro rfl <;> revert this <;> decide
  have trimmed : Text.trim text.toList = text.toList :=
    Text.trim_of_unblank fun c mem => Text.isBlank_of_isAlphanum (alphanum c mem)
  have read (cut : Nat → Nat → List Char) :
      steps cut 0 text.toList (.start, {}) = some (.name 0, {}) := by
    obtain ⟨c, cs, split⟩ := List.exists_cons_of_ne_nil level.ne_nil
    rw [split] at alphanum unbroken ⊢
    have starts := startsName_of_isAlphanum (alphanum c (List.mem_cons_self ..))
    have first : step cut 0 c (.start, {}) = some (.name 0, {}) := by
      simp [step, starts, (unbroken c (List.mem_cons_self ..)).2]
    rw [steps, first, Option.bind_some]
    exact steps_name (fun c mem => unbroken c (List.mem_cons_of_mem _ mem)) _
  have whole : Text.dropBytes 0 text.toList = text.toList := by cases text.toList <;> rfl
  unfold parse?
  simp only [trimmed, read, bind, Option.bind_some, whole, level.parse?_eq]

end Directive

namespace Filter

/-- Lets through what is grave enough. -/
def upTo (t : Threshold) : Filter := ⟨[(⟨none, []⟩, t)]⟩

theorem admits_upTo (t : Threshold) (e : Event) : (upTo t).admits e = t.admits e.severity := rfl

theorem parts_of_isLevel {text : String} {t : Threshold} (level : IsLevel text t) :
    parts text = [text.toList] := by
  have whole : ',' ∉ text.toList := fun mem => by
    have := level.isAlphanum _ mem
    revert this
    decide
  unfold parts
  rw [List.splitOn_eq_singleton whole]
  simp [level.ne_nil]

theorem parse?_of_isLevel {text : String} {t : Threshold} (level : IsLevel text t) :
    parse? text = some (upTo t) := by
  unfold parse?
  rw [parts_of_isLevel level, List.mapM_cons, Directive.parse?_of_isLevel level]
  rfl

theorem parseLossy_of_isLevel {text : String} {t : Threshold} (level : IsLevel text t) :
    parseLossy text = (upTo t, []) := by
  unfold parseLossy
  rw [parts_of_isLevel level]
  simp only [List.filterMap_cons, List.filter_cons, Directive.parse?_of_isLevel level]
  rfl

end Filter
end Event
end Clearance
