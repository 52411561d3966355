import Acceptor.Numeral
import Mathlib.Algebra.Group.Nat.Defs

/-!
# What numerals denote

`Denotes s n`: `s` is an optional sign and one or more ASCII digits, with value `n`. Reading accepts
exactly these texts, as long as there are not too many digits (`read_eq_ok_iff`, `read_eq_error_iff`), and
what is written for an integer denotes it (`denotes_toText`). What has been read can be written (`short_of_read`).
-/

namespace Acceptor.Numeral

def IsDigits (s : List Char) : Prop := s ≠ [] ∧ ∀ c ∈ s, c.isDigit = true

/-- `s` is an optional sign and one or more ASCII digits, and stands for `n`. -/
inductive Denotes : List Char → Int → Prop
  | plain {digits : List Char} (h : IsDigits digits) : Denotes digits (Nat.ofDigitChars 10 digits 0)
  | plus {digits : List Char} (h : IsDigits digits) :
    Denotes ('+' :: digits) (Nat.ofDigitChars 10 digits 0)
  | minus {digits : List Char} (h : IsDigits digits) :
    Denotes ('-' :: digits) (-(Nat.ofDigitChars 10 digits 0 : Nat))

/-- The text without its sign. -/
def unsigned : List Char → List Char
  | '+' :: s => s
  | '-' :: s => s
  | s => s

/-- Why `s` is not read: it is no numeral, or one of too many digits. -/
inductive Refused (s : List Char) : Refusal → Prop
  | malformed (h : ∀ n, ¬ Denotes s n) : Refused s .malformed
  | tooLong {n : Int} (h : Denotes s n) (hl : maxDigits < (unsigned s).length) :
    Refused s (.tooLong (unsigned s).length)

theorem isDigits_iff {s : List Char} : IsDigits s ↔ s ≠ [] ∧ s.all Char.isDigit := by
  rw [IsDigits, List.all_eq_true]

theorem IsDigits.head_ne {c b : Char} {s : List Char} (h : IsDigits (c :: s)) (hb : b.isDigit = false) :
    c ≠ b := by
  rintro rfl
  rw [h.2 c List.mem_cons_self] at hb; cases hb

/-- A text without a sign is its own digits. -/
theorem IsDigits.shape? {s : List Char} (h : IsDigits s) : shape? s = some (false, s) := by
  unfold Numeral.shape?
  split
  next negative digits hd =>
  split at hd
  · exact absurd rfl (h.head_ne (by decide))
  · exact absurd rfl (h.head_ne (by decide))
  · cases hd; rw [if_pos (isDigits_iff.1 h)]

theorem IsDigits.unsigned {s : List Char} (h : IsDigits s) : unsigned s = s := by
  unfold Numeral.unsigned
  split
  · exact absurd rfl (h.head_ne (by decide))
  · exact absurd rfl (h.head_ne (by decide))
  · rfl

/-- The shape of a text gives its value and its digits. -/
theorem denotes_of_shape? {s digits : List Char} {negative : Bool}
    (h : Numeral.shape? s = some (negative, digits)) :
    Denotes s (value negative digits) ∧ unsigned s = digits := by
  unfold Numeral.shape? at h
  split at h
  next negative' digits' hd =>
  split at h
  · next hdigits =>
    cases h
    have hdigits := isDigits_iff.2 hdigits
    split at hd
    · cases hd; exact ⟨.plus hdigits, rfl⟩
    · cases hd; exact ⟨.minus hdigits, rfl⟩
    · cases hd; exact ⟨.plain hdigits, hdigits.unsigned⟩
  · cases h

theorem shape?_of_denotes {s : List Char} {n : Int} (h : Denotes s n) :
    ∃ negative, Numeral.shape? s = some (negative, unsigned s) ∧ value negative (unsigned s) = n := by
  cases h with
  | plain h => exact ⟨false, by rw [h.unsigned, h.shape?], by rw [h.unsigned]; rfl⟩
  | plus h => exact ⟨false, if_pos (isDigits_iff.1 h), rfl⟩
  | minus h => exact ⟨true, if_pos (isDigits_iff.1 h), rfl⟩

theorem read_eq_ok_iff {s : String} {n : Int} :
    read s = .ok n ↔ Denotes s.toList n ∧ (unsigned s.toList).length ≤ maxDigits := by
  unfold read
  constructor
  · intro h
    split at h
    · cases h
    · next negative digits hs =>
      obtain ⟨hd, hu⟩ := denotes_of_shape? hs
      split at h
      · cases h
      · next hl => cases h; exact ⟨hd, by rw [hu]; exact Nat.le_of_not_lt hl⟩
  · rintro ⟨h, hl⟩
    obtain ⟨negative, hs, rfl⟩ := shape?_of_denotes h
    rw [hs]
    exact if_neg (Nat.not_lt.2 hl)

theorem read_eq_error_iff {s : String} {r : Refusal} : read s = .error r ↔ Refused s.toList r := by
  unfold read
  constructor
  · intro h
    split at h
    · next hs =>
      cases h
      refine .malformed fun n hn => ?_
      obtain ⟨negative, hs', -⟩ := shape?_of_denotes hn
      rw [hs] at hs'; cases hs'
    · next negative digits hs =>
      obtain ⟨hd, hu⟩ := denotes_of_shape? hs
      split at h
      · next hl =>
        cases h
        rw [← hu] at hl ⊢
        exact .tooLong hd hl
      · cases h
  · intro h
    cases h with
    | malformed h =>
      cases hs : shape? s.toList with
      | none => rfl
      | some shape => exact absurd (denotes_of_shape? hs).1 (h _)
    | tooLong h hl =>
      obtain ⟨negative, hs, -⟩ := shape?_of_denotes h
      rw [hs]
      exact if_pos hl

theorem isDigits_toDigits (n : Nat) : IsDigits (Nat.toDigits 10 n) :=
  ⟨Nat.toDigits_ne_nil, fun _ hc => Nat.isDigit_of_mem_toDigits (by decide) (by decide) hc⟩

theorem toList_toText_of_nonneg (n : Nat) : (toText n).toList = Nat.toDigits 10 n := Nat.toList_repr

theorem toList_toText_of_neg (n : Nat) : (toText (Int.negSucc n)).toList = '-' :: Nat.toDigits 10 (n + 1) := by
  show ("-" ++ Nat.repr (n + 1)).toList = _
  rw [String.toList_append, Nat.toList_repr]; rfl

theorem denotes_toText (n : Int) : Denotes (toText n).toList n := by
  cases n with
  | ofNat n =>
    have h := Denotes.plain (isDigits_toDigits n)
    rw [Nat.ofDigitChars_ten_toDigits] at h
    show Denotes (toText n).toList n
    rw [toList_toText_of_nonneg]; exact h
  | negSucc n =>
    have h := Denotes.minus (isDigits_toDigits (n + 1))
    rw [Nat.ofDigitChars_ten_toDigits] at h
    rw [toList_toText_of_neg]; exact h

theorem unsigned_toText (n : Int) : unsigned (toText n).toList = Nat.toDigits 10 n.natAbs := by
  cases n with
  | ofNat n =>
    show unsigned (toText n).toList = Nat.toDigits 10 n
    rw [toList_toText_of_nonneg, (isDigits_toDigits n).unsigned]
  | negSucc n => rw [toList_toText_of_neg]; rfl

theorem read_toText {n : Int} (h : Short n) : read (toText n) = .ok n :=
  read_eq_ok_iff.2 ⟨denotes_toText n, by rw [unsigned_toText]; exact h⟩

theorem ofDigitChars_lt {digits : List Char} (h : ∀ c ∈ digits, c.isDigit = true) :
    Nat.ofDigitChars 10 digits 0 < 10 ^ digits.length := by
  induction digits with
  | nil => decide
  | cons c digits ih =>
    rw [List.forall_mem_cons] at h
    have hrest := ih h.2
    have hc : c.toNat ≤ 57 := (Char.isDigit_iff_toNat.1 h.1).2
    have hzero : '0'.toNat = 48 := rfl
    have hfirst : 10 ^ digits.length * (c.toNat - '0'.toNat) ≤ 10 ^ digits.length * 9 :=
      Nat.mul_le_mul_left _ (by omega)
    rw [Nat.ofDigitChars_cons, Nat.ofDigitChars_eq_ofDigitChars_zero, List.length_cons, Nat.pow_succ, Nat.mul_zero,
      Nat.zero_add]
    omega

theorem short_of_isDigits {digits : List Char} (h : IsDigits digits) (hl : digits.length ≤ maxDigits) :
    (Nat.toDigits 10 (Nat.ofDigitChars 10 digits 0)).length ≤ maxDigits :=
  (Nat.length_toDigits_le_iff (by decide) (by decide)).2
    (Nat.lt_of_lt_of_le (ofDigitChars_lt h.2) (Nat.pow_le_pow_right (by decide) hl))

/-- Whatever is read can be written. -/
theorem short_of_read {s : String} {n : Int} (h : read s = .ok n) : Short n := by
  obtain ⟨hd, hl⟩ := read_eq_ok_iff.1 h
  generalize s.toList = s at hd hl
  cases hd with
  | plain hd => rw [hd.unsigned] at hl; exact short_of_isDigits hd hl
  | plus hd => exact short_of_isDigits hd hl
  | minus hd => rw [Short, Int.natAbs_neg]; exact short_of_isDigits hd hl

/-- The characters of a numeral. -/
theorem Denotes.mem {s : List Char} {n : Int} (h : Denotes s n) :
    s ≠ [] ∧ ∀ c ∈ s, c = '+' ∨ c = '-' ∨ c.isDigit = true := by
  cases h with
  | plain h => exact ⟨h.1, fun c hc => .inr (.inr (h.2 c hc))⟩
  | plus h =>
    refine ⟨List.cons_ne_nil _ _, fun c hc => ?_⟩
    rcases List.mem_cons.1 hc with rfl | hc
    · exact .inl rfl
    · exact .inr (.inr (h.2 c hc))
  | minus h =>
    refine ⟨List.cons_ne_nil _ _, fun c hc => ?_⟩
    rcases List.mem_cons.1 hc with rfl | hc
    · exact .inr (.inl rfl)
    · exact .inr (.inr (h.2 c hc))

end Acceptor.Numeral
