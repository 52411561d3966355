import Acceptor.Proofs.Numeral
import Mathlib.Data.Nat.Digits.Defs

/-!
# Spellings of an integer

A numeral is a sign or none (`IsSign`) in front of digits, each of which counts by its place (`placeValue`).
A plus sign, zeros in front and the minus sign of a zero make no difference to what it denotes. Without them
(`normalForm`) it is the text that is written for its integer (`Denotes.toList_toText`), so two numerals are read
as the same integer exactly if they have the same normal form (`read_normalises`).
-/

namespace Acceptor.Numeral

variable {s sign digits : List Char} {n : Int}

/-- At most one sign. -/
def IsSign (s : List Char) : Prop := s = [] ∨ s = ['+'] ∨ s = ['-']

/-- The value of digits, of which the last one counts ones and each other one ten times as much as the next. -/
def placeValue (digits : List Char) : Nat := Nat.ofDigits 10 (digits.reverse.map fun c => c.toNat - '0'.toNat)

/-- The digits from the first on that is not zero, or else a single zero. -/
def significant (digits : List Char) : List Char :=
  match digits.dropWhile (· == '0') with
  | [] => ['0']
  | digits => digits

/-- A numeral without its plus sign, the zeros in front and the minus sign of a zero. -/
def normalForm : List Char → List Char
  | '+' :: digits => significant digits
  | '-' :: digits => if significant digits = ['0'] then ['0'] else '-' :: significant digits
  | digits => significant digits

/-- There are numerals of any length. -/
theorem exists_isDigits {k : Nat} (hk : k ≠ 0) : ∃ s : String, s.length = k ∧ IsDigits s.toList := by
  refine ⟨String.ofList (List.replicate k '9'), by simp, ?_⟩
  rw [String.toList_ofList]
  exact ⟨by simpa using hk, fun c hc => by rw [List.eq_of_mem_replicate hc]; rfl⟩

theorem ofDigitChars_eq_placeValue (digits : List Char) : Nat.ofDigitChars 10 digits 0 = placeValue digits := by
  induction digits with
  | nil => rfl
  | cons c digits ih =>
    rw [Nat.ofDigitChars_cons, Nat.ofDigitChars_eq_ofDigitChars_zero, ih]
    simp [placeValue, Nat.ofDigits_append]
    omega

theorem IsSign.denotes (hs : IsSign sign) (hd : IsDigits digits) :
    Denotes (sign ++ digits) (if sign = ['-'] then -(placeValue digits : Int) else placeValue digits) ∧
      unsigned (sign ++ digits) = digits := by
  rw [← ofDigitChars_eq_placeValue]
  rcases hs with rfl | rfl | rfl
  · exact ⟨.plain hd, hd.unsigned⟩
  · exact ⟨.plus hd, rfl⟩
  · exact ⟨.minus hd, rfl⟩

theorem Denotes.exists_sign (h : Denotes s n) : ∃ sign digits, IsSign sign ∧ IsDigits digits ∧ s = sign ++ digits := by
  cases h with
  | plain h => exact ⟨[], s, .inl rfl, h, rfl⟩
  | plus h => exact ⟨['+'], _, .inr (.inl rfl), h, rfl⟩
  | minus h => exact ⟨['-'], _, .inr (.inr rfl), h, rfl⟩

/-- A digit is the only digit of its value. -/
theorem toDigits_digit {c : Char} (h : c.isDigit = true) :
    c.toNat - '0'.toNat < 10 ∧ Nat.toDigits 10 (c.toNat - '0'.toNat) = [c] := by
  obtain ⟨hlow, hhigh⟩ := Char.isDigit_iff_toNat.1 h
  have hlow : '0'.toNat ≤ c.toNat := hlow
  have hhigh : c.toNat ≤ 57 := hhigh
  have hzero : '0'.toNat = 48 := rfl
  have hlt : c.toNat - '0'.toNat < 10 := by omega
  have hc : Nat.digitChar (c.toNat - '0'.toNat) = c := by
    rw [← Char.toNat_inj, Nat.toNat_digitChar_of_lt_ten hlt]; omega
  exact ⟨hlt, by rw [Nat.toDigits_of_lt_base hlt, hc]⟩

/-- Digits behind the digits of a positive number are written for the value of them all. -/
theorem toDigits_append {m : Nat} (hm : 0 < m) (h : ∀ c ∈ digits, c.isDigit = true) :
    Nat.toDigits 10 m ++ digits = Nat.toDigits 10 (Nat.ofDigitChars 10 digits m) := by
  induction digits generalizing m with
  | nil => rw [List.append_nil, Nat.ofDigitChars_nil]
  | cons c digits ih =>
    rw [List.forall_mem_cons] at h
    obtain ⟨hlt, hc⟩ := toDigits_digit h.1
    have hfirst : Nat.toDigits 10 m ++ [c] = Nat.toDigits 10 (10 * m + (c.toNat - '0'.toNat)) := by
      rw [← hc, Nat.toDigits_append_toDigits (by decide) hm hlt]
    rw [Nat.ofDigitChars_cons, ← ih (by omega) h.2, ← hfirst, List.append_assoc, List.singleton_append]

theorem toDigits_ofDigitChars (h : ∀ c ∈ digits, c.isDigit = true) :
    Nat.toDigits 10 (Nat.ofDigitChars 10 digits 0) = significant digits := by
  induction digits with
  | nil => rfl
  | cons c digits ih =>
    rw [List.forall_mem_cons] at h
    rw [Nat.ofDigitChars_cons, Nat.mul_zero, Nat.zero_add]
    by_cases hc : c = '0'
    · subst hc
      rw [Nat.sub_self, ih h.2]; rfl
    · obtain ⟨-, hdigit⟩ := toDigits_digit h.1
      have hpos : 0 < c.toNat - '0'.toNat := by
        refine Nat.pos_of_ne_zero fun hzero => hc ?_
        rw [hzero, Nat.toDigits_zero] at hdigit
        exact (List.singleton_inj.1 hdigit).symm
      rw [← toDigits_append hpos h.2, hdigit, significant, List.dropWhile_cons_of_neg (by simpa using hc)]; rfl

theorem IsDigits.normalForm (h : IsDigits s) : normalForm s = significant s := by
  unfold Numeral.normalForm
  split
  · exact absurd rfl (h.head_ne (by decide))
  · exact absurd rfl (h.head_ne (by decide))
  · rfl

/-- Of all numerals of an integer the one that is written is in normal form. -/
theorem Denotes.toList_toText (h : Denotes s n) : (toText n).toList = normalForm s := by
  cases h with
  | plain h => rw [h.normalForm, toList_toText_of_nonneg, toDigits_ofDigitChars h.2]
  | plus h => rw [toList_toText_of_nonneg, toDigits_ofDigitChars h.2]; rfl
  | @minus digits h =>
    have hdigits := toDigits_ofDigitChars h.2
    rw [Numeral.normalForm]
    cases hn : Nat.ofDigitChars 10 digits 0 with
    | zero =>
      rw [hn, Nat.toDigits_zero] at hdigits
      rw [if_pos hdigits.symm]; rfl
    | succ m =>
      have hne : significant digits ≠ ['0'] := by
        intro hzero
        have hvalue := Nat.ofDigitChars_ten_toDigits (n := Nat.ofDigitChars 10 digits 0)
        rw [hdigits, hzero, hn] at hvalue; cases hvalue
      rw [if_neg hne, ← hdigits, hn]
      exact toList_toText_of_neg m

theorem read_eq_malformed_iff {s : String} :
    read s = .error .malformed ↔ ∀ sign digits, IsSign sign → IsDigits digits → s.toList ≠ sign ++ digits := by
  rw [read_eq_error_iff]
  constructor
  · intro h sign digits hsign hdigits hs
    cases h with
    | malformed h => exact h _ (by rw [hs]; exact (hsign.denotes hdigits).1)
  · intro h
    refine .malformed fun n hn => ?_
    obtain ⟨sign, digits, hsign, hdigits, hs⟩ := hn.exists_sign
    exact h sign digits hsign hdigits hs

theorem read_sign_digits (hs : IsSign sign) (hd : IsDigits digits) :
    read (String.ofList (sign ++ digits)) =
      if digits.length ≤ maxDigits then .ok (if sign = ['-'] then -(placeValue digits : Int) else placeValue digits)
      else .error (.tooLong digits.length) := by
  obtain ⟨hdenotes, hunsigned⟩ := hs.denotes hd
  rw [← String.toList_ofList (l := sign ++ digits)] at hdenotes hunsigned
  split
  · next hl => exact read_eq_ok_iff.2 ⟨hdenotes, by rwa [hunsigned]⟩
  · next hl =>
    have hrefused := Refused.tooLong hdenotes (by rw [hunsigned]; exact Nat.lt_of_not_le hl)
    rw [hunsigned] at hrefused
    exact read_eq_error_iff.2 hrefused

theorem toText_eq_of_read {s : String} {n : Int} (h : read s = .ok n) : (toText n).toList = normalForm s.toList :=
  (read_eq_ok_iff.1 h).1.toList_toText

/-- A token is read exactly if it is a numeral that is not too long, and then as what it says; writing takes reading
back up to the normal form, and reading takes writing back. -/
theorem read_normalises :
    (∀ s : String, read s = .error .malformed ↔
      ∀ sign digits, IsSign sign → IsDigits digits → s.toList ≠ sign ++ digits) ∧
    (∀ sign digits, IsSign sign → IsDigits digits →
      read (String.ofList (sign ++ digits)) =
        if digits.length ≤ maxDigits then .ok (if sign = ['-'] then -(placeValue digits : Int) else placeValue digits)
        else .error (.tooLong digits.length)) ∧
    (∀ n, Short n → read (toText n) = .ok n) ∧
    (∀ s n, read s = .ok n → Short n ∧ (toText n).toList = normalForm s.toList) ∧
    ∀ s t m n, read s = .ok m → read t = .ok n → (m = n ↔ normalForm s.toList = normalForm t.toList) := by
  refine ⟨fun s => read_eq_malformed_iff, fun sign digits => read_sign_digits, fun n => read_toText,
    fun s n h => ⟨short_of_read h, toText_eq_of_read h⟩, fun s t m n hm hn => ?_⟩
  rw [← toText_eq_of_read hm, ← toText_eq_of_read hn]
  constructor
  · rintro rfl; rfl
  · intro h
    have hread := read_toText (short_of_read hm)
    rw [String.toList_inj.1 h, read_toText (short_of_read hn)] at hread
    cases hread; rfl

/-- Two spellings of zero, zeros in front of another number, a digit too many, and a text with another character. -/
theorem read_normalises_zeros :
    (∀ sign digits, IsSign sign → IsDigits digits → "1_0".toList ≠ sign ++ digits) ∧
    read "-007" = .ok (-7) ∧
    (∃ s : String, s.length = 4301 ∧ read s = .error (.tooLong 4301)) ∧
    read (toText (-12)) = .ok (-12) ∧
    (toText (-7)).toList = normalForm "-007".toList ∧
    normalForm "-00".toList = normalForm "+0".toList ∧ normalForm "-1".toList ≠ normalForm "1".toList := by
  obtain ⟨hmalformed, hread, hwritten, hnormal, hsame⟩ := read_normalises
  have hseven : read "-007" = .ok (-7) :=
    hread ['-'] ['0', '0', '7'] (.inr (.inr rfl)) (by simp [IsDigits])
  obtain ⟨s, hlength, hdigits⟩ := exists_isDigits (k := 4301) (by omega)
  have hlong := hread [] s.toList (.inl rfl) hdigits
  rw [List.nil_append, String.ofList_toList, String.length_toList, hlength, if_neg (by decide)] at hlong
  exact ⟨(hmalformed "1_0").1 rfl, hseven, ⟨s, hlength, hlong⟩, hwritten (-12) (by decide),
    (hnormal "-007" (-7) hseven).2, (hsame "-00" "+0" 0 0 rfl rfl).1 rfl,
    mt (hsame "-1" "1" (-1) 1 rfl rfl).2 (by decide)⟩

end Acceptor.Numeral
