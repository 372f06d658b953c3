import Clearance.Proofs.Except
import Clearance.Proofs.Json.Skipping

/-!
What the readers of tokens have taken is a token of the grammar: a reader that succeeds has gone past
what it stands for, spelled in one of its ways, and past nothing else.
-/
namespace Clearance.Json

theorem gap_skipGap (s : List Char) : Gap s (skipGap s) := by
  induction s with
  | nil => exact .none
  | cons c s ih =>
    cases blank : isGap c with
    | true =>
      have skipped : skipGap (c :: s) = skipGap s := by simp [skipGap, blank]
      rw [skipped]
      exact .blank blank ih
    | false =>
      have token : skipGap (c :: s) = c :: s := by simp [skipGap, blank]
      rw [token]
      exact .none

theorem gap_of_skipGap {s rest : List Char} (h : skipGap s = rest) : Gap s rest := h ▸ gap_skipGap s

theorem Gap.trans {s s' rest : List Char} (h : Gap s s') (h' : Gap s' rest) : Gap s rest := by
  induction h with
  | none => exact h'
  | blank blank _ ih => exact .blank blank (ih h')

theorem eq_of_word? {w s rest : List Char} (h : word? w s = .ok rest) : s = w ++ rest := by
  induction w generalizing s with
  | nil => exact Except.ok.inj h
  | cons c w ih =>
    cases s with
    | nil => cases h
    | cons d s =>
      simp only [word?] at h
      split at h
      · rename_i same
        simp [same, ih h]
      · cases h

theorem gap_of_colon {s rest : List Char} (h : colon s = .ok rest) : Gap s (':' :: rest) := by
  unfold colon at h
  split at h
  · rename_i found
    cases h
    exact gap_of_skipGap found
  · cases h
  · cases h

/-! ### Strings -/

theorem hexDigit_of_hexDigit? {c : Char} {n : Nat} (h : Text.hexDigit? c = some n) : HexDigit c n := by
  have all : ∀ m < 128, ∀ n < 16, Text.hexDigit? (Char.ofNat m) = some n →
      Char.ofNat m = Nat.digitChar n ∨ Char.ofNat m = (Nat.digitChar n).toUpper := by decide +kernel
  have range : c.toNat < 128 ∧ n < 16 := by
    have zero : '0'.toNat = 48 := rfl
    have nine : '9'.toNat = 57 := rfl
    have a : 'a'.toNat = 97 := rfl
    have f : 'f'.toNat = 102 := rfl
    have upperA : 'A'.toNat = 65 := rfl
    have upperF : 'F'.toNat = 70 := rfl
    simp only [Text.hexDigit?, Char.le_def, UInt32.le_iff_toNat_le, Char.toNat_val] at h
    grind
  have same : Char.ofNat c.toNat = c := Char.ofNat_toNat c
  have digit := all c.toNat range.1 n range.2
  rw [same] at digit
  exact ⟨range.2, digit h⟩

theorem quad_of_hexQuad {n : Nat} {s rest : List Char} (h : hexQuad s = .ok (n, rest)) :
    Quad n s rest := by
  unfold hexQuad at h
  split at h
  · cases h
  · split at h
    · rename_i a b c d rest'
      split at h
      · rename_i value
        cases h
        simp only [Text.hexNumber?, List.foldlM_cons, List.foldlM_nil, Option.bind_eq_bind,
          Option.bind_eq_some_iff, Option.map_eq_some_iff, Option.pure_def, Option.some.injEq] at value
        obtain ⟨_, ⟨w, hw, rfl⟩, _, ⟨x, hx, rfl⟩, _, ⟨y, hy, rfl⟩, _, ⟨z, hz, rfl⟩, rfl⟩ := value
        have number : 16 * (16 * (16 * (16 * 0 + w) + x) + y) + z =
          0x1000 * w + 0x100 * x + 0x10 * y + z := by omega
        rw [number]
        exact .digits (hexDigit_of_hexDigit? hw) (hexDigit_of_hexDigit? hx) (hexDigit_of_hexDigit? hy)
          (hexDigit_of_hexDigit? hz)
      · cases h
    · cases h

theorem Quad.lt {n : Nat} {s rest : List Char} (h : Quad n s rest) : n < 0x10000 := by
  cases h with
  | digits ha hb hc hd =>
    have := ha.1
    have := hb.1
    have := hc.1
    have := hd.1
    omega

theorem toNat_ofNat {n : Nat} (valid : n < 0xD800 ∨ 0xDFFF < n ∧ n < 0x110000) :
    (Char.ofNat n).toNat = n := by
  have isValid : n.isValidChar := valid
  have same : Char.ofNat n = Char.ofNatAux n isValid := dif_pos isValid
  rw [same]
  rfl

theorem spelled_unit {n : Nat} {s rest : List Char} (quad : Quad n s rest)
    (low : isLowSurrogate n = false) (high : isHighSurrogate n = false) :
    Spelled (.char (Char.ofNat n)) ('\\' :: 'u' :: s) rest := by
  have small := quad.lt
  have code : (Char.ofNat n).toNat = n := by
    apply toNat_ofNat
    simp only [isLowSurrogate, isHighSurrogate, Bool.and_eq_false_iff, decide_eq_false_iff_not] at low high
    omega
  exact .unit (by rwa [code])

/-- Whatever number is written, it is a character's or a half's. -/
theorem exists_spelled {n : Nat} {s rest : List Char} (quad : Quad n s rest) :
    ∃ m, Spelled m ('\\' :: 'u' :: s) rest := by
  by_cases half : 0xD800 ≤ n ∧ n ≤ 0xDFFF
  · exact ⟨.half n, .half half.1 half.2 quad⟩
  · refine ⟨_, spelled_unit quad ?_ ?_⟩
    · simp only [isLowSurrogate, Bool.and_eq_false_iff, decide_eq_false_iff_not]
      omega
    · simp only [isHighSurrogate, Bool.and_eq_false_iff, decide_eq_false_iff_not]
      omega

theorem spelled_of_codePoint {c : Char} {s rest : List Char} (h : codePoint s = .ok (c, rest)) :
    Spelled (.char c) ('\\' :: 'u' :: s) rest := by
  obtain ⟨⟨n, s₁⟩, first, h⟩ := bind_ok h
  have quad := quad_of_hexQuad first
  simp only at h
  cases low : isLowSurrogate n with
  | true =>
    rw [low] at h
    cases h
  | false =>
    cases high : isHighSurrogate n with
    | false =>
      simp only [low, high, Bool.false_eq_true, if_false] at h
      cases h
      exact spelled_unit quad low high
    | true =>
      simp only [low, high, Bool.false_eq_true, if_false, if_true] at h
      split at h
      · cases h
      · cases h
      · obtain ⟨⟨m, s₂⟩, second, h⟩ := bind_ok h
        have quad' := quad_of_hexQuad second
        simp only at h
        split at h
        · rename_i is_low
          obtain ⟨rfl, rfl⟩ := Prod.mk.inj (Except.ok.inj h)
          simp only [isHighSurrogate, isLowSurrogate, Bool.and_eq_true, decide_eq_true_eq] at high is_low
          have code : (Char.ofNat (joinSurrogates n m)).toNat =
              0x10000 + 0x400 * (n - 0xD800) + (m - 0xDC00) := by
            apply toNat_ofNat
            unfold joinSurrogates
            omega
          have upper : 0xD800 + (n - 0xD800) = n := by omega
          have lower : 0xDC00 + (m - 0xDC00) = m := by omega
          rw [← upper] at quad
          rw [← lower] at quad'
          exact .pair code (by omega) (by omega) quad quad'
        · cases h
      · cases h
      · cases h

theorem mem_letterEscapes {l c : Char} (h : letterEscape? l = some c) : (l, c) ∈ letterEscapes := by
  unfold letterEscape? at h
  split at h <;> cases h <;> decide

theorem spelled_of_escape {c : Char} {s rest : List Char} (h : escape s = .ok (c, rest)) :
    Spelled (.char c) ('\\' :: s) rest := by
  unfold escape at h
  split at h
  · cases h
  · exact spelled_of_codePoint h
  · split at h
    · rename_i known
      cases h
      exact .letter (mem_letterEscapes known)
    · cases h

theorem quoted_of_stringTail {fuel : Nat} {taken s cs rest : List Char}
    (h : stringTail fuel taken s = .ok (cs, rest)) :
    ∃ l : List Char, cs = taken.reverse ++ l ∧ Quoted (l.map .char) s rest := by
  fun_induction stringTail fuel taken s with
  | case1 => cases h
  | case2 => cases h
  | case3 =>
    cases h
    exact ⟨[], by simp, .close⟩
  | case4 fuel taken s ih =>
    obtain ⟨⟨c, s'⟩, escaped, h⟩ := bind_ok h
    obtain ⟨l, rfl, quoted⟩ := ih c s' h
    exact ⟨c :: l, by simp, .next (spelled_of_escape escaped) quoted⟩
  | case5 => cases h
  | case6 fuel taken c s quote backslash printed ih =>
    obtain ⟨l, rfl, quoted⟩ := ih h
    exact ⟨c :: l, by simp, .next (.plain (Char.not_lt.1 printed) quote backslash) quoted⟩

theorem quoted_of_string {t : String} {s rest : List Char} (h : string s = .ok (t, rest)) :
    Quoted (marks t) s rest := by
  obtain ⟨⟨cs, s'⟩, taken, h⟩ := bind_ok h
  cases h
  obtain ⟨l, rfl, quoted⟩ := quoted_of_stringTail taken
  simpa [marks] using quoted

theorem quoted_of_skipStringTail {fuel : Nat} {s rest : List Char}
    (h : skipStringTail fuel s = .ok rest) : ∃ l, Quoted l s rest := by
  fun_induction skipStringTail fuel s with
  | case1 => cases h
  | case2 => cases h
  | case3 =>
    cases h
    exact ⟨[], .close⟩
  | case4 => cases h
  | case5 fuel s ih =>
    obtain ⟨⟨n, s'⟩, escaped, h⟩ := bind_ok h
    obtain ⟨m, spelled⟩ := exists_spelled (quad_of_hexQuad escaped)
    obtain ⟨l, quoted⟩ := ih s' h
    exact ⟨m :: l, .next spelled quoted⟩
  | case6 fuel c s _ d known ih =>
    obtain ⟨l, quoted⟩ := ih h
    exact ⟨.char d :: l, .next (.letter (mem_letterEscapes known)) quoted⟩
  | case7 => cases h
  | case8 => cases h
  | case9 fuel c s quote last _ other printed ih =>
    have backslash : c ≠ '\\' := by
      intro here
      cases s with
      | nil => exact last here rfl
      | cons d s => exact other d s here rfl
    obtain ⟨l, quoted⟩ := ih h
    exact ⟨.char c :: l, .next (.plain (Char.not_lt.1 printed) quote backslash) quoted⟩

theorem quoted_of_skipString {s rest : List Char} (h : skipString s = .ok rest) : ∃ l, Quoted l s rest :=
  quoted_of_skipStringTail h

theorem member_of_skipName {s rest : List Char} (h : skipName s = .ok rest) :
    ∃ k s₁ s₂, Gap s ('"' :: s₁) ∧ Quoted k s₁ s₂ ∧ Gap s₂ (':' :: rest) := by
  unfold skipName at h
  split at h
  · rename_i s₁ found
    obtain ⟨s₂, skipped, h⟩ := bind_ok h
    obtain ⟨k, name⟩ := quoted_of_skipString skipped
    exact ⟨k, s₁, s₂, gap_of_skipGap found, name, gap_of_colon h⟩
  · cases h
  · cases h

/-! ### Numbers -/

theorem digits_cons (c : Char) (s : List Char) :
    digits (c :: s) = if c.isDigit then (c :: (digits s).1, (digits s).2) else ([], c :: s) := by
  cases digit : c.isDigit <;> simp [digits, List.span_eq_takeWhile_dropWhile, digit]

theorem digits_append (s : List Char) : (digits s).1 ++ (digits s).2 = s := by
  simp [digits, List.span_eq_takeWhile_dropWhile]

theorem lacks_digits (s : List Char) : Lacks Char.isDigit (digits s).2 := by
  induction s with
  | nil => simp [digits, List.span_eq_takeWhile_dropWhile, Lacks]
  | cons c s ih =>
    rw [digits_cons]
    cases digit : c.isDigit with
    | true => exact ih
    | false => simp [Lacks, digit]

theorem digits_of_ne_nil {s : List Char} (some_digit : (digits s).1 ≠ []) : Digits s (digits s).2 := by
  induction s with
  | nil => simp [digits, List.span_eq_takeWhile_dropWhile] at some_digit
  | cons c s ih =>
    rw [digits_cons] at some_digit ⊢
    cases digit : c.isDigit with
    | false => simp [digit] at some_digit
    | true =>
      simp only [if_true]
      by_cases more : (digits s).1 = []
      · have ended : (digits s).2 = s := by
          cases s with
          | nil => rfl
          | cons d s =>
            rw [digits_cons] at more ⊢
            cases next : d.isDigit <;> simp_all
        rw [ended]
        exact .last digit (ended ▸ lacks_digits s)
      · exact .more digit (ih more)

theorem digits_ok {s ds rest : List Char} (h : digits s = (ds, rest)) (some_digit : ds ≠ []) :
    Digits s rest := by
  have found := digits_of_ne_nil (s := s) (by simpa [h] using some_digit)
  simpa [h] using found

theorem whole_of_wholeDigits {atEnd : Cause} {s ds rest : List Char}
    (h : wholeDigits atEnd s = .ok (ds, rest)) : Whole s rest := by
  unfold wholeDigits at h
  split at h
  · cases h
  · cases h
  · rename_i ds' rest' some_digit no_zero spanned
    cases h
    have number : Digits s rest := digits_ok spanned some_digit
    have split : s = ds ++ rest := by
      simpa [spanned] using (digits_append s).symm
    obtain ⟨d, ds, rfl⟩ := List.exists_cons_of_ne_nil some_digit
    by_cases zero : d = '0'
    · subst zero
      obtain rfl : ds = [] := by
        cases ds with
        | nil => rfl
        | cons e ds => exact (no_zero e ds rfl).elim
      subst split
      have ended := lacks_digits ('0' :: rest)
      have after : (digits ('0' :: rest)).2 = rest := congrArg Prod.snd spanned
      rw [after] at ended
      exact .zero ended
    · refine .digits ?_ number
      simp [split, Lacks, zero]

theorem fraction_of_fractionDigits {atEnd : Cause} {s ds rest : List Char}
    (h : fractionDigits atEnd s = .ok (ds, rest)) : Fraction s rest := by
  unfold fractionDigits at h
  split at h
  · rename_i s
    split at h
    · cases h
    · rename_i some_digit spanned
      cases h
      exact .some (digits_ok spanned some_digit)
  · rename_i no_point
    cases h
    refine .none fun c found => ?_
    cases s with
    | nil => cases found
    | cons d s =>
      obtain rfl := Option.some.inj found
      exact beq_false_of_ne fun here => no_point s (here ▸ rfl)

theorem lacks_of_exponentSign? {s : List Char} (h : exponentSign? s = none) :
    Lacks (fun c => c == 'e' || c == 'E') s := by
  intro c found
  cases s with
  | nil => cases found
  | cons d s =>
    obtain rfl := Option.some.inj found
    have lower : d ≠ 'e' := by
      rintro rfl
      unfold exponentSign? at h
      split at h <;> grind
    have upper : d ≠ 'E' := by
      rintro rfl
      unfold exponentSign? at h
      split at h <;> grind
    simp [lower, upper]

theorem sign_of_exponentSign? {s rest : List Char} {down : Bool}
    (h : exponentSign? s = some (down, rest)) :
    ∃ c s', s = c :: s' ∧ (c = 'e' ∨ c = 'E') ∧ Sign s' rest := by
  unfold exponentSign? at h
  split at h
  · cases h
    exact ⟨_, _, rfl, .inl rfl, .minus⟩
  · cases h
    exact ⟨_, _, rfl, .inr rfl, .minus⟩
  · cases h
    exact ⟨_, _, rfl, .inl rfl, .plus⟩
  · cases h
    exact ⟨_, _, rfl, .inr rfl, .plus⟩
  · cases h
    exact ⟨_, _, rfl, .inl rfl, .none⟩
  · cases h
    exact ⟨_, _, rfl, .inr rfl, .none⟩
  · cases h

theorem unsigned_of_skipNumber {s rest : List Char} (h : skipNumber s = .ok rest) : Unsigned s rest := by
  obtain ⟨⟨_, s₁⟩, whole, h⟩ := bind_ok h
  obtain ⟨⟨_, s₂⟩, fraction, h⟩ := bind_ok h
  refine ⟨s₁, s₂, whole_of_wholeDigits whole, fraction_of_fractionDigits fraction, ?_⟩
  simp only at h
  split at h
  · rename_i absent
    cases h
    exact .none (lacks_of_exponentSign? absent)
  · rename_i signed
    split at h
    · cases h
    · rename_i some_digit spanned
      cases h
      obtain ⟨c, s', rfl, letter, sign⟩ := sign_of_exponentSign? signed
      exact .some letter sign (digits_ok spanned some_digit)

end Clearance.Json
