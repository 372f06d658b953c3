import Clearance.Json.Read

/-!
The grammar of JSON, apart from any reader. A relation between two texts says that the first starts
with what is described and goes on with the second. The members of an object may come in any order,
blanks may stand between tokens, and a string may be escaped in every way there is.
-/
namespace Clearance.Json

/-- A text that goes on with no such character. -/
def Lacks (p : Char → Bool) (s : List Char) : Prop := ∀ c ∈ s.head?, p c = false

/-- Blanks. -/
inductive Gap : List Char → List Char → Prop where
  | none {rest : List Char} : Gap rest rest
  | blank {c : Char} {s rest : List Char} : isGap c = true → Gap s rest → Gap (c :: s) rest

/-- Digits up to the last one there is. -/
inductive Digits : List Char → List Char → Prop where
  | last {c : Char} {rest : List Char} : c.isDigit = true → Lacks Char.isDigit rest →
    Digits (c :: rest) rest
  | more {c : Char} {s rest : List Char} : c.isDigit = true → Digits s rest → Digits (c :: s) rest

/-- No zero stands before other digits. -/
inductive Whole : List Char → List Char → Prop where
  | zero {rest : List Char} : Lacks Char.isDigit rest → Whole ('0' :: rest) rest
  | digits {s rest : List Char} : Lacks (· == '0') s → Digits s rest → Whole s rest

inductive Fraction : List Char → List Char → Prop where
  | none {rest : List Char} : Lacks (· == '.') rest → Fraction rest rest
  | some {s rest : List Char} : Digits s rest → Fraction ('.' :: s) rest

inductive Sign : List Char → List Char → Prop where
  | none {rest : List Char} : Sign rest rest
  | plus {rest : List Char} : Sign ('+' :: rest) rest
  | minus {rest : List Char} : Sign ('-' :: rest) rest

inductive Exponent : List Char → List Char → Prop where
  | none {rest : List Char} : Lacks (fun c => c == 'e' || c == 'E') rest → Exponent rest rest
  | some {c : Char} {s s' rest : List Char} : c = 'e' ∨ c = 'E' → Sign s s' → Digits s' rest →
    Exponent (c :: s) rest

structure Unsigned (s rest : List Char) : Prop where
  parts : ∃ s₁ s₂, Whole s s₁ ∧ Fraction s₁ s₂ ∧ Exponent s₂ rest

inductive Number : List Char → List Char → Prop where
  | positive {s rest : List Char} : Unsigned s rest → Number s rest
  | negative {s rest : List Char} : Unsigned s rest → Number ('-' :: s) rest

/-- A hexadecimal digit, in either case. -/
def HexDigit (c : Char) (n : Nat) : Prop :=
  n < 16 ∧ (c = Nat.digitChar n ∨ c = (Nat.digitChar n).toUpper)

inductive Quad : Nat → List Char → List Char → Prop where
  | digits {a b c d : Char} {w x y z : Nat} {rest : List Char} :
    HexDigit a w → HexDigit b x → HexDigit c y → HexDigit d z →
    Quad (0x1000 * w + 0x100 * x + 0x10 * y + z) (a :: b :: c :: d :: rest) rest

/-- What a string is made of. A half is one of the two parts in which UTF-16 writes a character beyond
U+FFFF, standing alone; no text has one. -/
inductive Mark where
  | char (c : Char)
  | half (n : Nat)
deriving DecidableEq

def marks (s : String) : List Mark := s.toList.map .char

/-- The characters that may be escaped by a letter. -/
def letterEscapes : List (Char × Char) :=
  [('"', '"'), ('\\', '\\'), ('/', '/'), ('b', '\x08'), ('f', '\x0c'), ('n', '\n'), ('r', '\r'),
    ('t', '\t')]

/-- Every way to write a character in a string. -/
inductive Spelled : Mark → List Char → List Char → Prop where
  | plain {c : Char} {rest : List Char} : ' ' ≤ c → c ≠ '"' → c ≠ '\\' →
    Spelled (.char c) (c :: rest) rest
  | letter {l c : Char} {rest : List Char} : (l, c) ∈ letterEscapes →
    Spelled (.char c) ('\\' :: l :: rest) rest
  | unit {c : Char} {s rest : List Char} : Quad c.toNat s rest →
    Spelled (.char c) ('\\' :: 'u' :: s) rest
  | pair {c : Char} {high low : Nat} {s s' rest : List Char} :
    c.toNat = 0x10000 + 0x400 * high + low → high < 0x400 → low < 0x400 →
    Quad (0xD800 + high) s ('\\' :: 'u' :: s') → Quad (0xDC00 + low) s' rest →
    Spelled (.char c) ('\\' :: 'u' :: s) rest
  | half {n : Nat} {s rest : List Char} : 0xD800 ≤ n → n ≤ 0xDFFF → Quad n s rest →
    Spelled (.half n) ('\\' :: 'u' :: s) rest

/-- The rest of a string after its opening quote. -/
inductive Quoted : List Mark → List Char → List Char → Prop where
  | close {rest : List Char} : Quoted [] ('"' :: rest) rest
  | next {m : Mark} {l : List Mark} {s s' rest : List Char} :
    Spelled m s s' → Quoted l s' rest → Quoted (m :: l) s rest

theorem quoted_plain {k : String} (plain : ∀ c ∈ k.toList, ' ' ≤ c ∧ c ≠ '"' ∧ c ≠ '\\')
    (rest : List Char) : Quoted (marks k) (k.toList ++ '"' :: rest) rest := by
  unfold marks
  generalize k.toList = cs at plain ⊢
  induction cs with
  | nil => exact .close
  | cons c cs ih =>
    obtain ⟨⟨space, quote, escape⟩, later⟩ := List.forall_mem_cons.1 plain
    exact .next (.plain space quote escape) (ih later)

/-- A JSON value. Nothing takes a number, so which one it is does not matter. -/
inductive Datum where
  | null
  | boolean (b : Bool)
  | number
  | text (marks : List Mark)
  | list (items : List Datum)
  | object (members : List (List Mark × Datum))

/-- What can be written: a value, and what is inside of a list or an object from one of its items or
members on, with the closing bracket. -/
inductive Piece where
  | value (x : Datum)
  | items (l : List Datum)
  | members (l : List (List Mark × Datum))

inductive Written : Piece → List Char → List Char → Prop where
  | null {rest : List Char} : Written (.value .null) ('n' :: 'u' :: 'l' :: 'l' :: rest) rest
  | isTrue {rest : List Char} : Written (.value (.boolean true)) ('t' :: 'r' :: 'u' :: 'e' :: rest) rest
  | isFalse {rest : List Char} :
    Written (.value (.boolean false)) ('f' :: 'a' :: 'l' :: 's' :: 'e' :: rest) rest
  | number {s rest : List Char} : Number s rest → Written (.value .number) s rest
  | text {l : List Mark} {s rest : List Char} : Quoted l s rest →
    Written (.value (.text l)) ('"' :: s) rest
  | emptyList {s rest : List Char} : Gap s (']' :: rest) → Written (.value (.list [])) ('[' :: s) rest
  | list {l : List Datum} {s rest : List Char} : Written (.items l) s rest →
    Written (.value (.list l)) ('[' :: s) rest
  | emptyObject {s rest : List Char} : Gap s ('\x7d' :: rest) →
    Written (.value (.object [])) ('\x7b' :: s) rest
  | object {l : List (List Mark × Datum)} {s rest : List Char} : Written (.members l) s rest →
    Written (.value (.object l)) ('\x7b' :: s) rest
  | lastItem {x : Datum} {s s₁ s₂ rest : List Char} :
    Gap s s₁ → Written (.value x) s₁ s₂ → Gap s₂ (']' :: rest) → Written (.items [x]) s rest
  | item {x : Datum} {l : List Datum} {s s₁ s₂ s₃ rest : List Char} :
    Gap s s₁ → Written (.value x) s₁ s₂ → Gap s₂ (',' :: s₃) → Written (.items l) s₃ rest →
    Written (.items (x :: l)) s rest
  | lastMember {k : List Mark} {x : Datum} {s s₁ s₂ s₃ s₄ s₅ rest : List Char} :
    Gap s ('"' :: s₁) → Quoted k s₁ s₂ → Gap s₂ (':' :: s₃) → Gap s₃ s₄ →
    Written (.value x) s₄ s₅ → Gap s₅ ('\x7d' :: rest) → Written (.members [(k, x)]) s rest
  | member {k : List Mark} {x : Datum} {l : List (List Mark × Datum)}
    {s s₁ s₂ s₃ s₄ s₅ s₆ rest : List Char} :
    Gap s ('"' :: s₁) → Quoted k s₁ s₂ → Gap s₂ (':' :: s₃) → Gap s₃ s₄ →
    Written (.value x) s₄ s₅ → Gap s₅ (',' :: s₆) → Written (.members l) s₆ rest →
    Written (.members ((k, x) :: l)) s rest

/-- A whole text that is a value between blanks. -/
def WrittenAs (text : String) (x : Datum) : Prop :=
  ∃ s₁ s₂, Gap text.toList s₁ ∧ Written (.value x) s₁ s₂ ∧ Gap s₂ []

theorem writtenAs_ofList {cs s₁ s₂ : List Char} {x : Datum} (before : Gap cs s₁)
    (value : Written (.value x) s₁ s₂) (after : Gap s₂ []) : WrittenAs (String.ofList cs) x :=
  ⟨s₁, s₂, by rwa [String.toList_ofList], value, after⟩

/-- The text goes on at a token. -/
def AtToken (s : List Char) : Prop := Lacks isGap s

theorem skipGap_of_atToken {s : List Char} (h : AtToken s) : skipGap s = s := by
  cases s with
  | nil => rfl
  | cons c s => simp [skipGap, h c rfl]

theorem Gap.skipGap_eq {s rest : List Char} (h : Gap s rest) : skipGap s = skipGap rest := by
  induction h with
  | none => rfl
  | blank blank _ ih => simpa [skipGap, List.dropWhile_cons, blank] using ih

theorem Gap.skip {s rest : List Char} (h : Gap s rest) (token : AtToken rest) : skipGap s = rest :=
  h.skipGap_eq.trans (skipGap_of_atToken token)

theorem Gap.length_le {s rest : List Char} (h : Gap s rest) : rest.length ≤ s.length := by
  induction h with
  | none => exact Nat.le_refl _
  | blank _ _ ih => exact Nat.le_succ_of_le ih

theorem atToken_cons {c : Char} {s : List Char} (h : isGap c = false) : AtToken (c :: s) := by
  intro c' hc
  obtain rfl := Option.some.inj hc
  exact h

/-- The characters that a value starts with. -/
def startsValue (c : Char) : Bool :=
  c == 'n' || c == 't' || c == 'f' || c == '-' || c == '"' || c == '[' || c == '\x7b' || c.isDigit

theorem Digits.head {s rest : List Char} (h : Digits s rest) :
    ∃ c s', s = c :: s' ∧ c.isDigit = true := by
  cases h with
  | last digit _ => exact ⟨_, _, rfl, digit⟩
  | more digit _ => exact ⟨_, _, rfl, digit⟩

theorem Unsigned.head {s rest : List Char} (h : Unsigned s rest) :
    ∃ c s', s = c :: s' ∧ c.isDigit = true := by
  obtain ⟨_, _, whole, _⟩ := h.parts
  cases whole with
  | zero _ => exact ⟨'0', _, rfl, rfl⟩
  | digits _ h => exact h.head

theorem Digits.length_lt {s rest : List Char} (h : Digits s rest) : rest.length < s.length := by
  induction h with
  | last _ _ => exact Nat.lt_succ_self _
  | more _ _ ih => exact Nat.lt_succ_of_lt ih

theorem Whole.length_lt {s rest : List Char} (h : Whole s rest) : rest.length < s.length := by
  cases h with
  | zero _ => exact Nat.lt_succ_self _
  | digits _ h => exact h.length_lt

theorem Fraction.length_le {s rest : List Char} (h : Fraction s rest) : rest.length ≤ s.length := by
  cases h with
  | none _ => exact Nat.le_refl _
  | some h => exact Nat.le_of_lt (Nat.lt_succ_of_lt h.length_lt)

theorem Sign.length_le {s rest : List Char} (h : Sign s rest) : rest.length ≤ s.length := by
  cases h with
  | none => exact Nat.le_refl _
  | plus => exact Nat.le_succ _
  | minus => exact Nat.le_succ _

theorem Exponent.length_le {s rest : List Char} (h : Exponent s rest) : rest.length ≤ s.length := by
  cases h with
  | none _ => exact Nat.le_refl _
  | some _ sign h => exact Nat.le_succ_of_le (Nat.le_trans (Nat.le_of_lt h.length_lt) sign.length_le)

theorem Unsigned.length_lt {s rest : List Char} (h : Unsigned s rest) : rest.length < s.length := by
  obtain ⟨_, _, whole, fraction, exponent⟩ := h.parts
  exact Nat.lt_of_le_of_lt (Nat.le_trans exponent.length_le fraction.length_le) whole.length_lt

theorem Written.head {x : Datum} {s rest : List Char} (h : Written (.value x) s rest) :
    ∃ c s', s = c :: s' ∧ startsValue c = true := by
  cases h with
  | null => exact ⟨'n', _, rfl, rfl⟩
  | isTrue => exact ⟨'t', _, rfl, rfl⟩
  | isFalse => exact ⟨'f', _, rfl, rfl⟩
  | number number =>
    cases number with
    | positive h =>
      obtain ⟨c, s', rfl, digit⟩ := h.head
      exact ⟨c, s', rfl, by simp [startsValue, digit]⟩
    | negative _ => exact ⟨'-', _, rfl, rfl⟩
  | text _ => exact ⟨'"', _, rfl, rfl⟩
  | emptyList _ => exact ⟨'[', _, rfl, rfl⟩
  | list _ => exact ⟨'[', _, rfl, rfl⟩
  | emptyObject _ => exact ⟨'\x7b', _, rfl, rfl⟩
  | object _ => exact ⟨'\x7b', _, rfl, rfl⟩

theorem startsValue_ne {c d : Char} (h : startsValue c = true) (hd : startsValue d = false) :
    c ≠ d := by
  rintro rfl
  exact absurd (h.symm.trans hd) Bool.noConfusion

theorem isGap_of_startsValue {c : Char} (h : startsValue c = true) : isGap c = false := by
  have blank (d : Char) (hd : startsValue d = false) : (c == d) = false :=
    beq_false_of_ne (startsValue_ne h hd)
  simp [isGap, blank ' ' rfl, blank '\n' rfl, blank '\t' rfl, blank '\r' rfl]

theorem Written.atToken {x : Datum} {s rest : List Char} (h : Written (.value x) s rest) :
    AtToken s := by
  obtain ⟨c, s', rfl, starts⟩ := h.head
  exact atToken_cons (isGap_of_startsValue starts)

end Clearance.Json
