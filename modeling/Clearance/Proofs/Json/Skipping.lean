import Mathlib.Data.List.TakeDrop
import Clearance.Proofs.Json.Tokens

/-!
Skipping a value leaves what comes after it. One step of the skipper takes a scalar or enters a list or
an object; the lists and objects that it has entered are kept on a stack, and what is inside of one of
them leads back to what is outside.
-/
namespace Clearance.Json

theorem span_of_lacks {p : Char → Bool} {s : List Char} (h : Lacks p s) : s.span p = ([], s) := by
  cases s with
  | nil => rfl
  | cons c s => simp [List.span_eq_takeWhile_dropWhile, h c rfl]

theorem digits_eq {s rest : List Char} (h : Digits s rest) :
    ∃ ds, ds ≠ [] ∧ digits s = (ds, rest) ∧ s = ds ++ rest := by
  induction h with
  | @last c rest digit ended =>
    have spanned := span_of_lacks ended
    refine ⟨[c], List.cons_ne_nil _ _, ?_, rfl⟩
    simp only [digits, List.span_eq_takeWhile_dropWhile, Prod.mk.injEq] at spanned ⊢
    simp [digit, spanned.1, spanned.2]
  | @more c s rest digit _ ih =>
    obtain ⟨ds, _, spanned, rfl⟩ := ih
    refine ⟨c :: ds, List.cons_ne_nil _ _, ?_, rfl⟩
    simp only [digits, List.span_eq_takeWhile_dropWhile, Prod.mk.injEq] at spanned ⊢
    simp [digit, spanned.1, spanned.2]

theorem wholeDigits_whole (atEnd : Cause) {s rest : List Char} (h : Whole s rest) :
    ∃ ds, wholeDigits atEnd s = .ok (ds, rest) := by
  unfold wholeDigits
  cases h with
  | zero ended =>
    obtain ⟨ds, _, spanned, whole⟩ := digits_eq (.last rfl ended : Digits ('0' :: rest) rest)
    have single : ['0'] ++ rest = ds ++ rest := whole
    obtain rfl := List.append_cancel_right single
    rw [spanned]
    exact ⟨_, rfl⟩
  | digits nonzero h =>
    obtain ⟨ds, some_digit, spanned, rfl⟩ := digits_eq h
    obtain ⟨d, ds, rfl⟩ := List.exists_cons_of_ne_nil some_digit
    have first : d ≠ '0' := by simpa [Lacks] using nonzero
    rw [spanned]
    refine ⟨d :: ds, ?_⟩
    split
    · rename_i heq
      cases heq
    · rename_i heq
      exact absurd (List.cons.inj (Prod.mk.inj heq).1).1 first
    · rename_i heq
      obtain ⟨rfl, rfl⟩ := Prod.mk.inj heq
      rfl

theorem fractionDigits_fraction (atEnd : Cause) {s rest : List Char} (h : Fraction s rest) :
    ∃ ds, fractionDigits atEnd s = .ok (ds, rest) := by
  cases h with
  | none absent =>
    refine ⟨[], ?_⟩
    unfold fractionDigits
    split
    · simp [Lacks] at absent
    · rfl
  | some h =>
    obtain ⟨ds, some_digit, spanned, _⟩ := digits_eq h
    obtain ⟨d, ds, rfl⟩ := List.exists_cons_of_ne_nil some_digit
    exact ⟨d :: ds, by simp only [fractionDigits, spanned]⟩

theorem exponentSign?_none {s : List Char} (h : Lacks (fun c => c == 'e' || c == 'E') s) :
    exponentSign? s = none := by
  unfold exponentSign?
  split <;> first | rfl | simp [Lacks] at h

theorem exponentSign?_some {c : Char} {s s' rest : List Char} (letter : c = 'e' ∨ c = 'E')
    (sign : Sign s s') (h : Digits s' rest) : ∃ down, exponentSign? (c :: s) = some (down, s') := by
  obtain ⟨d, s'', rfl, digit⟩ := h.head
  have minus : d ≠ '-' := by
    rintro rfl
    cases digit
  have plus : d ≠ '+' := by
    rintro rfl
    cases digit
  rcases letter with rfl | rfl <;> cases sign <;> simp [exponentSign?, minus, plus]

theorem skipNumber_unsigned {s rest : List Char} (h : Unsigned s rest) : skipNumber s = .ok rest := by
  obtain ⟨s₁, s₂, whole, fraction, exponent⟩ := h.parts
  obtain ⟨ws, read_whole⟩ := wholeDigits_whole .invalidNumber whole
  obtain ⟨fs, read_fraction⟩ := fractionDigits_fraction .invalidNumber fraction
  unfold skipNumber
  simp only [read_whole, read_fraction, bind, Except.bind]
  cases exponent with
  | none absent => simp only [exponentSign?_none absent]
  | some letter sign h =>
    obtain ⟨down, found⟩ := exponentSign?_some letter sign h
    obtain ⟨ds, some_digit, spanned, _⟩ := digits_eq h
    obtain ⟨d, ds, rfl⟩ := List.exists_cons_of_ne_nil some_digit
    simp only [found, spanned]

theorem colon_gap {s rest : List Char} (h : Gap s (':' :: rest)) : colon s = .ok rest := by
  unfold colon
  rw [h.skip (atToken_cons rfl)]
  rfl

theorem skipName_member {k : List Mark} {s s₁ s₂ s₃ : List Char} (gap : Gap s ('"' :: s₁))
    (name : Quoted k s₁ s₂) (gap' : Gap s₂ (':' :: s₃)) : skipName s = .ok s₃ := by
  unfold skipName
  rw [gap.skip (atToken_cons rfl)]
  simp only [skipString_quoted name, bind, Except.bind]
  exact colon_gap gap'

/-- Goes on after a step. -/
def resume (fuel : Nat) (r : Except Fault Skipped) : Except Fault (List Char) :=
  match r with
  | .error fault => .error fault
  | .ok (.whole rest) => .ok rest
  | .ok (.inside brackets rest) => skipLoop fuel brackets rest

theorem skipLoop_succ (fuel : Nat) (brackets : List Bracket) (s : List Char) :
    skipLoop (fuel + 1) brackets s = resume fuel (enter brackets s) := by
  rw [skipLoop]
  cases enter brackets s with
  | error fault => rfl
  | ok skipped => cases skipped <;> rfl

theorem enter_gap {s s' : List Char} (h : Gap s s') (brackets : List Bracket) :
    enter brackets s = enter brackets s' := by
  unfold enter
  rw [h.skipGap_eq]

/-- The skipper gets from here to there and leaves its brackets as they were. -/
def Passes (s rest : List Char) : Prop :=
  ∃ steps, rest.length + steps < s.length ∧ ∀ fuel outer,
    skipLoop (fuel + steps + 1) outer s = resume fuel (leave outer rest)

theorem passes_of_enter {s rest : List Char} (shorter : rest.length < s.length)
    (h : ∀ outer, enter outer s = leave outer rest) : Passes s rest := by
  refine ⟨0, shorter, fun fuel outer => ?_⟩
  rw [Nat.add_zero, skipLoop_succ, h]

theorem Passes.gap {s s' rest : List Char} (gap : Gap s s') (h : Passes s' rest) : Passes s rest := by
  obtain ⟨steps, shorter, passes⟩ := h
  refine ⟨steps, Nat.lt_of_lt_of_le shorter gap.length_le, fun fuel outer => ?_⟩
  rw [← passes, skipLoop_succ, skipLoop_succ, enter_gap gap]

theorem leave_list_more {s rest : List Char} (h : Gap s (',' :: rest)) (outer : List Bracket) :
    leave (.list :: outer) s = .ok (.inside (.list :: outer) rest) := by
  unfold leave
  rw [h.skip (atToken_cons rfl)]
  rfl

theorem leave_list_close {s rest : List Char} (h : Gap s (']' :: rest)) (outer : List Bracket) :
    leave (.list :: outer) s = leave outer rest := by
  conv => lhs; unfold leave
  rw [h.skip (atToken_cons rfl)]
  rfl

theorem leave_object_more {s rest rest' : List Char} (h : Gap s (',' :: rest))
    (name : skipName rest = .ok rest') (outer : List Bracket) :
    leave (.object :: outer) s = .ok (.inside (.object :: outer) rest') := by
  unfold leave
  rw [h.skip (atToken_cons rfl)]
  simp only [name, bind, Except.bind]

theorem leave_object_close {s rest : List Char} (h : Gap s ('\x7d' :: rest)) (outer : List Bracket) :
    leave (.object :: outer) s = leave outer rest := by
  conv => lhs; unfold leave
  rw [h.skip (atToken_cons rfl)]
  rfl

/-- What is inside of a bracket leads the skipper out of it. -/
def LeadsOut (b : Bracket) (s rest : List Char) : Prop :=
  ∃ steps, rest.length + steps < s.length ∧ ∀ fuel outer,
    skipLoop (fuel + steps + 1) (b :: outer) s = resume fuel (leave outer rest)

theorem Passes.leadsOut {b : Bracket} {s s' rest : List Char} (h : Passes s s')
    (shorter : rest.length ≤ s'.length)
    (close : ∀ outer, leave (b :: outer) s' = leave outer rest) : LeadsOut b s rest := by
  obtain ⟨steps, less, passes⟩ := h
  exact ⟨steps, by omega, fun fuel outer => by rw [passes, close]⟩

theorem Passes.leadsOut_more {b : Bracket} {s s' s'' rest : List Char} (h : Passes s s')
    (shorter : s''.length ≤ s'.length)
    (more : ∀ outer, leave (b :: outer) s' = .ok (.inside (b :: outer) s''))
    (next : LeadsOut b s'' rest) : LeadsOut b s rest := by
  obtain ⟨steps, less, passes⟩ := h
  obtain ⟨steps', less', leads⟩ := next
  refine ⟨steps' + 1 + steps, by omega, fun fuel outer => ?_⟩
  rw [← Nat.add_assoc, passes, more]
  exact leads fuel outer

theorem LeadsOut.passes {b : Bracket} {s s' rest : List Char} (h : LeadsOut b s' rest)
    (shorter : s'.length < s.length)
    (h' : ∀ outer, enter outer s = .ok (.inside (b :: outer) s')) : Passes s rest := by
  obtain ⟨steps, less, leads⟩ := h
  refine ⟨steps + 1, by omega, fun fuel outer => ?_⟩
  rw [skipLoop_succ, h']
  exact leads fuel outer

theorem enter_digit {c : Char} {s rest : List Char} (digit : c.isDigit = true)
    (read : skipNumber (c :: s) = .ok rest) (outer : List Bracket) :
    enter outer (c :: s) = leave outer rest := by
  have starts : startsValue c = true := by simp [startsValue, digit]
  unfold enter
  rw [skipGap_of_atToken (atToken_cons (isGap_of_startsValue starts))]
  split <;> rename_i heq <;> cases heq
  all_goals first | cases digit | simp only [digit, if_true, read, bind, Except.bind]

theorem passes_number {s rest : List Char} (h : Number s rest) : Passes s rest := by
  cases h with
  | positive h =>
    obtain ⟨c, s', rfl, digit⟩ := h.head
    exact passes_of_enter h.length_lt (enter_digit digit (skipNumber_unsigned h))
  | @negative s _ h =>
    refine passes_of_enter (Nat.lt_succ_of_lt h.length_lt) fun outer => ?_
    have read := skipNumber_unsigned h
    show (skipNumber s).bind (leave outer) = _
    rw [read]
    rfl

theorem enter_text {l : List Mark} {s rest : List Char} (h : Quoted l s rest) (outer : List Bracket) :
    enter outer ('"' :: s) = leave outer rest := by
  show (skipString s).bind (leave outer) = _
  rw [skipString_quoted h]
  rfl

theorem enter_emptyList {s rest : List Char} (h : Gap s (']' :: rest)) (outer : List Bracket) :
    enter outer ('[' :: s) = leave outer rest := by
  unfold enter
  rw [skipGap_of_atToken (atToken_cons rfl)]
  simp only [h.skip (atToken_cons rfl)]

theorem enter_emptyObject {s rest : List Char} (h : Gap s ('\x7d' :: rest)) (outer : List Bracket) :
    enter outer ('\x7b' :: s) = leave outer rest := by
  unfold enter
  rw [skipGap_of_atToken (atToken_cons rfl)]
  simp only [h.skip (atToken_cons rfl)]

theorem enter_list {s s' : List Char} (gap : Gap s s') {c : Char} {t : List Char} (head : s' = c :: t)
    (starts : startsValue c = true) (outer : List Bracket) :
    enter outer ('[' :: s) = .ok (.inside (.list :: outer) s') := by
  subst head
  unfold enter
  rw [skipGap_of_atToken (atToken_cons rfl)]
  simp only [gap.skip (atToken_cons (isGap_of_startsValue starts))]
  split
  · rename_i heq
    cases heq
    cases starts
  · rename_i heq
    cases heq
  · rfl

theorem skipName_gap {s s' : List Char} (h : Gap s s') : skipName s = skipName s' := by
  unfold skipName
  rw [h.skipGap_eq]

theorem enter_object {s s₁ s' : List Char} (gap : Gap s ('"' :: s₁)) (name : skipName s = .ok s')
    (outer : List Bracket) : enter outer ('\x7b' :: s) = .ok (.inside (.object :: outer) s') := by
  unfold enter
  rw [skipGap_of_atToken (atToken_cons rfl)]
  rw [skipName_gap gap] at name
  simp only [gap.skip (atToken_cons rfl), bind, Except.bind]
  split
  · rename_i heq
    cases heq
  · rw [name]

theorem LeadsOut.gap {b : Bracket} {s s' rest : List Char} (gap : Gap s s') (h : LeadsOut b s' rest) :
    LeadsOut b s rest := by
  obtain ⟨steps, shorter, leads⟩ := h
  refine ⟨steps, Nat.lt_of_lt_of_le shorter gap.length_le, fun fuel outer => ?_⟩
  rw [← leads, skipLoop_succ, skipLoop_succ, enter_gap gap]

/-- Where the skipper is led by what is written. -/
def Piece.Passed : Piece → List Char → List Char → Prop
  | value _, s, rest => Passes s rest
  | items _, s, rest => ∃ c t, Gap s (c :: t) ∧ startsValue c = true ∧ LeadsOut .list (c :: t) rest
  | members _, s, rest => ∃ s₁ s', Gap s ('"' :: s₁) ∧ skipName s = .ok s' ∧ s'.length < s.length ∧
    LeadsOut .object s' rest

theorem Written.passed {p : Piece} {s rest : List Char} (h : Written p s rest) : p.Passed s rest := by
  induction h with
  | null => exact passes_of_enter (by simp only [List.length_cons]; omega) fun _ => rfl
  | isTrue => exact passes_of_enter (by simp only [List.length_cons]; omega) fun _ => rfl
  | isFalse => exact passes_of_enter (by simp only [List.length_cons]; omega) fun _ => rfl
  | number h => exact passes_number h
  | text h => exact passes_of_enter (Nat.lt_succ_of_lt h.length_lt) (enter_text h)
  | emptyList gap => exact passes_of_enter (Nat.lt_succ_of_lt gap.length_le) (enter_emptyList gap)
  | list _ ih =>
    obtain ⟨c, t, gap, starts, leads⟩ := ih
    exact leads.passes (Nat.lt_succ_of_le gap.length_le) (enter_list gap rfl starts)
  | emptyObject gap => exact passes_of_enter (Nat.lt_succ_of_lt gap.length_le) (enter_emptyObject gap)
  | object _ ih =>
    obtain ⟨s₁, s', gap, name, shorter, leads⟩ := ih
    exact leads.passes (Nat.lt_succ_of_lt shorter) (enter_object gap name)
  | lastItem before written after ih =>
    obtain ⟨c, t, rfl, starts⟩ := written.head
    exact ⟨c, t, before, starts, ih.leadsOut (Nat.le_of_lt after.length_le) (leave_list_close after)⟩
  | item before written after _ ih ih' =>
    obtain ⟨c, t, rfl, starts⟩ := written.head
    obtain ⟨c', t', next, _, leads⟩ := ih'
    exact ⟨c, t, before, starts,
      ih.leadsOut_more (Nat.le_of_lt after.length_le) (leave_list_more after) (leads.gap next)⟩
  | lastMember before name between between' _ after ih =>
    have := before.length_le
    have := name.length_lt
    have := between.length_le
    simp only [List.length_cons] at *
    exact ⟨_, _, before, skipName_member before name between, by omega,
      (ih.gap between').leadsOut (Nat.le_of_lt after.length_le) (leave_object_close after)⟩
  | member before name between between' _ after _ ih ih' =>
    obtain ⟨_, _, _, name', shorter', leads⟩ := ih'
    have := before.length_le
    have := name.length_lt
    have := between.length_le
    have := after.length_le
    simp only [List.length_cons] at *
    exact ⟨_, _, before, skipName_member before name between, by omega,
      (ih.gap between').leadsOut_more (by omega) (leave_object_more after name') leads⟩

theorem skip_written {x : Datum} {s s₁ rest : List Char} (gap : Gap s s₁)
    (h : Written (.value x) s₁ rest) : skip s = .ok rest := by
  obtain ⟨steps, shorter, passes⟩ := (show Passes s₁ rest from h.passed).gap gap
  obtain ⟨fuel, enough⟩ : ∃ fuel, s.length = fuel + steps := ⟨s.length - steps, by omega⟩
  unfold skip
  rw [enough, passes]
  rfl

theorem Written.length_lt {x : Datum} {s rest : List Char} (h : Written (.value x) s rest) :
    rest.length < s.length := by
  obtain ⟨steps, shorter, _⟩ := show Passes s rest from h.passed
  omega

end Clearance.Json
