import Clearance.Proofs.Json.Grammar

/-!
Readers of tokens take what the grammar says. Strings are read mark by mark, so that a reader needs no
more steps than there are characters.
-/
namespace Clearance.Json

theorem hexDigit?_of_hexDigit {c : Char} {n : Nat} (h : HexDigit c n) : Text.hexDigit? c = some n := by
  have all : ∀ n < 16, Text.hexDigit? (Nat.digitChar n) = some n ∧
      Text.hexDigit? (Nat.digitChar n).toUpper = some n := by decide
  obtain ⟨small, rfl | rfl⟩ := h
  · exact (all n small).1
  · exact (all n small).2

theorem length_le_bytes (s : List Char) : s.length ≤ bytes s := by
  have grows (n : Nat) : n + s.length ≤ s.foldl (fun n c => n + c.utf8Size) n := by
    induction s generalizing n with
    | nil => exact Nat.le_refl n
    | cons c s ih =>
      have step := ih (n + c.utf8Size)
      have one := c.utf8Size_pos
      simp only [List.length_cons, List.foldl_cons]
      omega
  simpa [bytes] using grows 0

theorem hexQuad_of_quad {n : Nat} {s rest : List Char} (h : Quad n s rest) :
    hexQuad s = .ok (n, rest) := by
  cases h with
  | @digits a b c d w x y z rest ha hb hc hd =>
    have long : ¬ bytes (a :: b :: c :: d :: rest) < 4 := by
      have least := length_le_bytes (a :: b :: c :: d :: rest)
      simp only [List.length_cons] at least
      omega
    have value : Text.hexNumber? [a, b, c, d] = some (0x1000 * w + 0x100 * x + 0x10 * y + z) := by
      simp only [Text.hexNumber?, List.foldlM_cons, List.foldlM_nil, hexDigit?_of_hexDigit ha,
        hexDigit?_of_hexDigit hb, hexDigit?_of_hexDigit hc, hexDigit?_of_hexDigit hd,
        Option.map_some, Option.bind_eq_bind, Option.bind_some, pure]
      congr 1
      omega
    unfold hexQuad
    rw [if_neg long]
    simp only [value]

theorem Quad.length_le {n : Nat} {s rest : List Char} (h : Quad n s rest) :
    rest.length + 4 = s.length := by
  cases h
  rfl

/-- No character is a half. -/
theorem toNat_not_half (c : Char) : isLowSurrogate c.toNat = false ∧ isHighSurrogate c.toNat = false := by
  have valid : c.toNat < 0xD800 ∨ 0xDFFF < c.toNat ∧ c.toNat < 0x110000 := c.valid
  unfold isLowSurrogate isHighSurrogate
  simp only [Bool.and_eq_false_iff, decide_eq_false_iff_not]
  omega

theorem codePoint_unit {c : Char} {s rest : List Char} (h : Quad c.toNat s rest) :
    codePoint s = .ok (c, rest) := by
  obtain ⟨low, high⟩ := toNat_not_half c
  unfold codePoint
  rw [hexQuad_of_quad h]
  simp only [bind, Except.bind, low, high, Bool.false_eq_true, if_false, Char.ofNat_toNat]

theorem codePoint_pair {c : Char} {high low : Nat} {s s' rest : List Char}
    (value : c.toNat = 0x10000 + 0x400 * high + low) (hhigh : high < 0x400) (hlow : low < 0x400)
    (first : Quad (0xD800 + high) s ('\\' :: 'u' :: s')) (second : Quad (0xDC00 + low) s' rest) :
    codePoint s = .ok (c, rest) := by
  have not_low : isLowSurrogate (0xD800 + high) = false := by
    simp only [isLowSurrogate, Bool.and_eq_false_iff, decide_eq_false_iff_not]
    omega
  have is_high : isHighSurrogate (0xD800 + high) = true := by
    simp only [isHighSurrogate, Bool.and_eq_true, decide_eq_true_eq]
    omega
  have is_low : isLowSurrogate (0xDC00 + low) = true := by
    simp only [isLowSurrogate, Bool.and_eq_true, decide_eq_true_eq]
    omega
  have joined : Char.ofNat (joinSurrogates (0xD800 + high) (0xDC00 + low)) = c := by
    have same : joinSurrogates (0xD800 + high) (0xDC00 + low) = c.toNat := by
      unfold joinSurrogates
      omega
    rw [same, Char.ofNat_toNat]
  unfold codePoint
  rw [hexQuad_of_quad first]
  simp only [bind, Except.bind, not_low, is_high, Bool.false_eq_true, if_false, if_true,
    hexQuad_of_quad second, is_low, joined]

theorem letterEscape?_of_mem {l c : Char} (h : (l, c) ∈ letterEscapes) :
    l ≠ 'u' ∧ letterEscape? l = some c := by
  have all : ∀ e ∈ letterEscapes, e.1 ≠ 'u' ∧ letterEscape? e.1 = some e.2 := by decide
  exact all (l, c) h

theorem Spelled.length_lt {m : Mark} {s rest : List Char} (h : Spelled m s rest) :
    rest.length < s.length := by
  cases h with
  | plain _ _ _ => exact Nat.lt_succ_self _
  | letter _ =>
    simp only [List.length_cons]
    omega
  | unit quad =>
    have := quad.length_le
    simp only [List.length_cons]
    omega
  | pair _ _ _ first second =>
    have := first.length_le
    have := second.length_le
    simp only [List.length_cons] at *
    omega
  | half _ _ quad =>
    have := quad.length_le
    simp only [List.length_cons]
    omega

theorem Quoted.length_lt {l : List Mark} {s rest : List Char} (h : Quoted l s rest) :
    rest.length < s.length := by
  induction h with
  | close => exact Nat.lt_succ_self _
  | next spelled _ ih => exact Nat.lt_trans ih spelled.length_lt

theorem stringTail_spelled {c : Char} {s rest : List Char} (h : Spelled (.char c) s rest) (fuel : Nat)
    (taken : List Char) : stringTail (fuel + 1) taken s = stringTail fuel (c :: taken) rest := by
  cases h with
  | plain printed quote backslash =>
    rw [stringTail]
    · exact if_neg (Nat.not_lt.2 printed)
    · exact fun h => quote h
    · exact fun h => backslash h
  | @letter l _ _ mem =>
    obtain ⟨not_unit, value⟩ := letterEscape?_of_mem mem
    have read : escape (l :: rest) = .ok (c, rest) := by
      unfold escape
      split
      · contradiction
      · rename_i heq
        exact absurd (List.cons.inj heq).1 not_unit
      · rename_i heq
        obtain ⟨rfl, rfl⟩ := List.cons.inj heq
        rw [value]
    simp only [stringTail, read, bind, Except.bind]
  | unit quad => simp only [stringTail, escape, codePoint_unit quad, bind, Except.bind]
  | pair value high low first second =>
    simp only [stringTail, escape, codePoint_pair value high low first second, bind, Except.bind]

theorem stringTail_quoted {l : List Char} {s rest : List Char} (h : Quoted (l.map .char) s rest)
    {fuel : Nat} (enough : s.length ≤ fuel) (taken : List Char) :
    stringTail fuel taken s = .ok (taken.reverse ++ l, rest) := by
  induction l generalizing s fuel taken with
  | nil =>
    cases h with
    | close =>
      obtain ⟨fuel, rfl⟩ : ∃ n, fuel = n + 1 := ⟨fuel - 1, by simp at enough; omega⟩
      simp [stringTail]
  | cons c l ih =>
    cases h with
    | next spelled quoted =>
      have shorter := spelled.length_lt
      obtain ⟨fuel, rfl⟩ : ∃ n, fuel = n + 1 := ⟨fuel - 1, by omega⟩
      rw [stringTail_spelled spelled, ih quoted (by omega)]
      simp

theorem string_quoted {t : String} {s rest : List Char} (h : Quoted (marks t) s rest) :
    string s = .ok (t, rest) := by
  unfold string
  rw [stringTail_quoted h (Nat.le_succ _)]
  simp [bind, Except.bind]

theorem skipStringTail_quoted {l : List Mark} {s rest : List Char} (h : Quoted l s rest) {fuel : Nat}
    (enough : s.length ≤ fuel) : skipStringTail fuel s = .ok rest := by
  induction h generalizing fuel with
  | close =>
    obtain ⟨fuel, rfl⟩ : ∃ n, fuel = n + 1 := ⟨fuel - 1, by simp at enough; omega⟩
    rfl
  | next spelled _ ih =>
    have shorter := spelled.length_lt
    obtain ⟨fuel, rfl⟩ : ∃ n, fuel = n + 1 := ⟨fuel - 1, by omega⟩
    cases spelled with
    | @plain c rest printed quote backslash =>
      have shown : ¬ c < ' ' := Nat.not_lt.2 printed
      rw [skipStringTail, if_neg shown, ih (by omega)]
      · exact fun h => quote h
      · exact fun h => absurd h backslash
      · exact fun _ h => absurd h backslash
      · exact fun _ _ h => absurd h backslash
    | letter mem =>
      obtain ⟨not_unit, value⟩ := letterEscape?_of_mem mem
      rw [skipStringTail]
      · simp only [value]
        exact ih (by omega)
      · exact not_unit
    | unit quad =>
      simp only [skipStringTail, hexQuad_of_quad quad, bind, Except.bind]
      exact ih (by omega)
    | pair _ _ _ first second =>
      have least := first.length_le
      simp only [List.length_cons] at least enough
      obtain ⟨fuel, rfl⟩ : ∃ n, fuel = n + 1 := ⟨fuel - 1, by omega⟩
      simp only [skipStringTail, hexQuad_of_quad first, hexQuad_of_quad second, bind, Except.bind]
      have least := second.length_le
      exact ih (by omega)
    | half _ _ quad =>
      simp only [skipStringTail, hexQuad_of_quad quad, bind, Except.bind]
      exact ih (by omega)

theorem skipString_quoted {l : List Mark} {s rest : List Char} (h : Quoted l s rest) :
    skipString s = .ok rest :=
  skipStringTail_quoted h (Nat.le_succ _)

end Clearance.Json
