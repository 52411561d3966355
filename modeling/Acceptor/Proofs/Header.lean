import Acceptor.Proofs.Admission
import Acceptor.Proofs.Grammar
import Acceptor.Proofs.Spelling

/-!
# The list of final states

A line lists final states if every token of it is a numeral that is not too long. Otherwise reading it fails at the
first token that is none, and what stands behind that token makes no difference. The texts of some integers, joined
by blanks, list these integers (`finalStates_all_or_first`).
-/

namespace Acceptor

namespace Line

variable {line s token : String} {number : Option Int} {tokens : List String} {ids : List Int} {fault : Fault}

/-- The texts of the integers one behind the other, with one or more blanks from each to the next. -/
inductive Joined : List Int → String → Prop
  | nil : Joined [] ""
  | single (q : Int) : Joined [q] (Numeral.toText q)
  | cons {q r : Int} {ids : List Int} {gap s : String} (hgap : Text.Gap gap) (h : Joined (r :: ids) s) :
    Joined (q :: r :: ids) (Numeral.toText q ++ gap ++ s)

theorem tokens_of_joined (h : Joined ids s) : Tokens s (ids.map Numeral.toText) := by
  induction h with
  | nil => exact .blank (by simp)
  | single q =>
    have hword := Text.Spaced.word (b := []) (by simp) (isWord_toText q) (by simp) (.blank (b := []) (by simp))
    simpa [Tokens] using hword
  | @cons q r ids gap s hgap _ ih =>
    have hword := Text.Spaced.word (b := []) (by simp) (isWord_toText q) (hgap.head_isBlank s.toList)
      (ih.blank_append hgap.2)
    simpa [Tokens] using hword

theorem tokens_intercalate (h : ∀ token ∈ tokens, Text.IsWord token.toList) :
    Tokens (" ".intercalate tokens) tokens := by
  rw [tokens_iff]
  apply words_eq
  rw [String.toList_intercalate]
  exact Text.blankSeparated_intercalate (by simpa using h)

theorem finalStates_eq_ok_iff_fits (h : Tokens line tokens) :
    finalStates line number = .ok ids ↔ List.Forall₂ Numeral.Fits tokens ids := by
  rw [finalStates_eq_ok_iff, Lists, tokens_iff.1 h]
  simp only [Numeral.read_eq_ok_iff]; rfl

theorem finalStates_joined (h : Joined ids s) (hids : ∀ q ∈ ids, Numeral.Short q) : finalStates s number = .ok ids := by
  rw [finalStates_eq_ok_iff_fits (tokens_of_joined h), List.forall₂_map_left_iff, List.forall₂_same]
  exact fun q hq => Numeral.read_eq_ok_iff.1 (Numeral.read_toText (hids q hq))

theorem tokenFault_iff {cause : String → ParseError.Cause} :
    TokenFault line number cause token fault ↔
      Numeral.Refused token.toList .malformed ∧ fault = .parse ⟨cause token, number, some line⟩ ∨
      ∃ digits, Numeral.Refused token.toList (.tooLong digits) ∧ fault = .numeralTooLong digits := by
  constructor
  · intro h
    cases h with
    | malformed h => exact .inl ⟨h, rfl⟩
    | tooLong h => exact .inr ⟨_, h, rfl⟩
  · rintro (⟨h, rfl⟩ | ⟨digits, h, rfl⟩)
    · exact .malformed h
    · exact .tooLong h

theorem finalStates_eq_error_iff_first (h : Tokens line tokens) :
    finalStates line number = .error fault ↔ ∃ before token after, tokens = before ++ token :: after ∧
      (∀ t ∈ before, ∃ n, Numeral.Fits t n) ∧ TokenFault line number .finalNotInteger token fault := by
  have hfits (before : List String) : (∀ t ∈ before, ∃ n, Numeral.Fits t n) ↔
      ∃ ids, List.Forall₂ (fun token q => Numeral.read token = .ok q) before ids := by
    simp only [exists_forall₂_iff, Numeral.read_eq_ok_iff]; rfl
  rw [finalStates_eq_error_iff]
  constructor
  · rintro ⟨hw, hids, hfault⟩
    exact ⟨_, _, _, (tokens_iff.1 h).symm.trans hw, (hfits _).2 ⟨_, hids⟩, hfault⟩
  · rintro ⟨before, token, after, hw, hbefore, hfault⟩
    obtain ⟨ids, hids⟩ := (hfits before).1 hbefore
    exact .token ((tokens_iff.1 h).trans hw) hids hfault

/-- Reading a list of final states gives the integers of all its tokens, or what is wrong with the first token that is
no numeral or too long. -/
theorem finalStates_all_or_first (line : String) (number : Option Int) :
    (∃! tokens, Tokens line tokens) ∧
    (∀ tokens, Tokens line tokens →
      (∀ ids, finalStates line number = .ok ids ↔ List.Forall₂ Numeral.Fits tokens ids) ∧
      ((∃ ids, finalStates line number = .ok ids) ↔ ∀ token ∈ tokens, ∃ n, Numeral.Fits token n) ∧
      ∀ fault, finalStates line number = .error fault ↔
        ∃ before token after, tokens = before ++ token :: after ∧ (∀ t ∈ before, ∃ n, Numeral.Fits t n) ∧
          (Numeral.Refused token.toList .malformed ∧ fault = .parse ⟨.finalNotInteger token, number, some line⟩ ∨
            ∃ digits, Numeral.Refused token.toList (.tooLong digits) ∧ fault = .numeralTooLong digits)) ∧
    ∀ ids, Joined ids line → (∀ q ∈ ids, Numeral.Short q) → finalStates line number = .ok ids := by
  refine ⟨existsUnique_tokens line, fun tokens h => ⟨fun ids => finalStates_eq_ok_iff_fits h, ?_, fun fault => ?_⟩,
    fun ids => finalStates_joined⟩
  · simp only [finalStates_eq_ok_iff_fits h, exists_forall₂_iff]
  · simp only [finalStates_eq_error_iff_first h, tokenFault_iff]

/-- Signs, zeros in front and wide gaps; and of a token that is no numeral and a numeral of 4301 digits the first. -/
theorem finalStates_all_or_first_between :
    Joined [2, 0, 2, -5] "2 0\u2003\t2\x1c-5" ∧ finalStates "2 0\u2003\t2\x1c-5" none = .ok [2, 0, 2, -5] ∧
    finalStates "-007\n+1 " none = .ok [-7, 1] ∧
    ∃ nines : String, nines.length = 4301 ∧
      (let line := " ".intercalate ["7", "1_0", nines]
       finalStates line (some 3) = .error (.parse ⟨.finalNotInteger "1_0", some 3, some line⟩)) ∧
      finalStates (" ".intercalate ["7", nines, "1_0"]) (some 3) = .error (.numeralTooLong 4301) := by
  have hspace : Text.Gap " " := by decide
  have hwide : Text.Gap "\u2003\t" := by decide
  have hseparator : Text.Gap "\x1c" := by decide
  have hjoined : Joined [2, 0, 2, -5] "2 0\u2003\t2\x1c-5" :=
    .cons hspace (.cons hwide (.cons hseparator (.single (-5))))
  have hseven : ∀ t ∈ ["7"], ∃ n, Numeral.Fits t n := by
    simpa using ⟨7, Numeral.read_eq_ok_iff.1 rfl⟩
  have hsigns : List.Forall₂ Numeral.Fits ["-007", "+1"] [-7, 1] :=
    .cons (Numeral.read_eq_ok_iff.1 rfl) (.cons (Numeral.read_eq_ok_iff.1 rfl) .nil)
  have hmalformed : Numeral.Refused "1_0".toList .malformed := Numeral.read_eq_error_iff.1 rfl
  obtain ⟨nines, hlength, hdigits⟩ := Numeral.exists_isDigits (k := 4301) (by omega)
  have hlong : Numeral.Refused nines.toList (.tooLong 4301) := by
    rw [← hlength, ← String.length_toList]
    exact hdigits.refused (by rw [String.length_toList, hlength]; decide)
  have hwords : Text.IsWord "7".toList ∧ Text.IsWord "1_0".toList ∧ Text.IsWord nines.toList :=
    ⟨by simp [Text.IsWord]; decide, by simp [Text.IsWord]; decide, isWord_of_denotes (.plain hdigits)⟩
  have hbefore : Tokens (" ".intercalate ["7", "1_0", nines]) ["7", "1_0", nines] :=
    tokens_intercalate (by simpa using hwords)
  have hbehind : Tokens (" ".intercalate ["7", nines, "1_0"]) ["7", nines, "1_0"] :=
    tokens_intercalate (by simpa [and_comm] using hwords)
  refine ⟨hjoined, (finalStates_all_or_first _ none).2.2 _ hjoined (by decide),
    (((finalStates_all_or_first _ none).2.1 ["-007", "+1"] (tokens_iff.2 rfl)).1 _).2 hsigns, nines, hlength, ?_, ?_⟩
  · exact (((finalStates_all_or_first _ (some 3)).2.1 _ hbefore).2.2 _).2
      ⟨["7"], "1_0", _, rfl, hseven, .inl ⟨hmalformed, rfl⟩⟩
  · exact (((finalStates_all_or_first _ (some 3)).2.1 _ hbehind).2.2 _).2
      ⟨["7"], nines, _, rfl, hseven, .inr ⟨4301, hlong, rfl⟩⟩

end Line

end Acceptor
