import Acceptor.Proofs.LineFault

/-!
# The grammar of a transition line

A line has its tokens between blanks, and there is one way only to take it apart (`Tokens`,
`existsUnique_tokens`). It is read as a transition if the tokens are a numeral, a single character and a numeral,
where the numerals are not too long (`Fits`). Of what else may be wrong the first is reported, in the order: the
number of tokens, the source, the symbol, the target (`transition_follows_grammar`).
-/

namespace Acceptor

/-- `s` is a numeral of `n` that is not too long. -/
def Numeral.Fits (s : String) (n : Int) : Prop :=
  Denotes s.toList n ∧ (unsigned s.toList).length ≤ maxDigits

theorem Numeral.IsDigits.refused {s : List Char} (h : IsDigits s) (hl : maxDigits < s.length) :
    Refused s (.tooLong s.length) := by
  have hrefused := Refused.tooLong (.plain h) (by rwa [h.unsigned])
  rwa [h.unsigned] at hrefused

namespace Line

/-- The line is made of these tokens, with blanks between them and perhaps around them. -/
def Tokens (line : String) (tokens : List String) : Prop :=
  Text.Spaced line.toList (tokens.map String.toList)

theorem tokens_iff {line : String} {tokens : List String} : Tokens line tokens ↔ Text.words line = tokens := by
  refine ⟨fun h => words_eq h.blankSeparated_eq, fun h => Text.spaced_iff.2 ?_⟩
  rw [← h, Text.words, List.map_map]
  simp [Function.comp_def]

theorem existsUnique_tokens (line : String) : ∃! tokens, Tokens line tokens := by
  simp only [tokens_iff]; exact existsUnique_eq'

/-- A line is read exactly if it follows the grammar. If it does not, the number of tokens comes first; of three
tokens each is looked at only if there is nothing wrong with those before it. -/
theorem transition_follows_grammar (line : String) (number : Option Int) :
    (∃! tokens, Tokens line tokens) ∧
    (∀ t, transition line number = .ok t ↔ ∃ source target,
      Tokens line [source, String.singleton t.symbol, target] ∧
        Numeral.Fits source t.source ∧ Numeral.Fits target t.target) ∧
    (∀ tokens, Tokens line tokens → tokens.length ≠ 3 →
      transition line number = fail line number (.tokenCount tokens.length)) ∧
    ∀ source symbol target, Tokens line [source, symbol, target] →
      (Numeral.Refused source.toList .malformed →
        transition line number = fail line number (.sourceNotInteger source)) ∧
      (∀ digits, Numeral.Refused source.toList (.tooLong digits) →
        transition line number = .error (.numeralTooLong digits)) ∧
      ∀ q, Numeral.Fits source q →
        (1 < symbol.length → transition line number = fail line number (.symbolTooLong symbol)) ∧
        (symbol.length = 1 →
          (Numeral.Refused target.toList .malformed →
            transition line number = fail line number (.targetNotInteger target)) ∧
          ∀ digits, Numeral.Refused target.toList (.tooLong digits) →
            transition line number = .error (.numeralTooLong digits)) := by
  refine ⟨existsUnique_tokens line, fun t => ?_, fun tokens htokens hcount => ?_,
    fun source symbol target htokens => ?_⟩
  · simp only [transition_eq_ok_iff, Reads, tokens_iff, Numeral.Fits, Numeral.read_eq_ok_iff]
  · obtain rfl := tokens_iff.1 htokens
    exact transition_eq_error_iff.2 (.count hcount)
  · have hw := tokens_iff.1 htokens
    refine ⟨fun h => transition_eq_error_iff.2 (.source hw (.malformed h)),
      fun digits h => transition_eq_error_iff.2 (.source hw (.tooLong h)), fun q hq => ?_⟩
    have hread : Numeral.read source = .ok q := Numeral.read_eq_ok_iff.2 hq
    constructor
    · intro hlong
      refine transition_eq_error_iff.2 (.symbol hw hread fun c hc => ?_)
      rw [hc] at hlong
      simp at hlong
    · intro hone
      obtain ⟨c, hc⟩ := List.length_eq_one_iff.1 hone
      obtain rfl : symbol = String.singleton c := String.toList_inj.1 (by rw [hc, String.toList_singleton])
      exact ⟨fun h => transition_eq_error_iff.2 (.target hw hread (.malformed h)),
        fun digits h => transition_eq_error_iff.2 (.target hw hread (.tooLong h))⟩

/-- A line with wide blanks around its tokens, and lines of which several tokens are wrong, one of them with a
numeral of 4301 digits. -/
theorem transition_follows_grammar_untrimmed :
    transition "\u3000-007\u2003😀\t+1\n" none = .ok ⟨-7, '😀', 1⟩ ∧
    transition "x a b c" none = fail "x a b c" none (.tokenCount 4) ∧
    transition "1_0 ab x" none = fail "1_0 ab x" none (.sourceNotInteger "1_0") ∧
    transition "1 ab x" none = fail "1 ab x" none (.symbolTooLong "ab") ∧
    transition "1 a ٣" none = fail "1 a ٣" none (.targetNotInteger "٣") ∧
    ∃ nines : String, nines.length = 4301 ∧ transition (nines ++ " ab x") none = .error (.numeralTooLong 4301) := by
  have hone : Numeral.Fits "1" 1 := Numeral.read_eq_ok_iff.1 rfl
  obtain ⟨-, hok, -, -⟩ := transition_follows_grammar "\u3000-007\u2003😀\t+1\n" none
  obtain ⟨-, -, hcount, -⟩ := transition_follows_grammar "x a b c" none
  obtain ⟨-, -, -, hsource⟩ := transition_follows_grammar "1_0 ab x" none
  obtain ⟨-, -, -, hsymbol⟩ := transition_follows_grammar "1 ab x" none
  obtain ⟨-, -, -, htarget⟩ := transition_follows_grammar "1 a ٣" none
  refine ⟨(hok _).2 ⟨"-007", "+1", tokens_iff.2 rfl, Numeral.read_eq_ok_iff.1 rfl, Numeral.read_eq_ok_iff.1 rfl⟩,
    hcount ["x", "a", "b", "c"] (tokens_iff.2 rfl) (by decide),
    (hsource "1_0" "ab" "x" (tokens_iff.2 rfl)).1 (Numeral.read_eq_error_iff.1 rfl),
    ((hsymbol "1" "ab" "x" (tokens_iff.2 rfl)).2.2 1 hone).1 (by decide),
    (((htarget "1" "a" "٣" (tokens_iff.2 rfl)).2.2 1 hone).2 rfl).1 (Numeral.read_eq_error_iff.1 rfl), ?_⟩
  obtain ⟨digits, hlength, hdigits⟩ : ∃ s : List Char, s.length = 4301 ∧ Numeral.IsDigits s :=
    ⟨List.replicate 4301 '9', List.length_replicate, List.cons_ne_nil _ _, fun c hc => by
      rw [List.eq_of_mem_replicate hc]; decide⟩
  have hrest : Text.Spaced " ab x".toList ["ab".toList, "x".toList] := Text.spaced_iff.2 rfl
  have hword : Text.IsWord digits := isWord_of_denotes (.plain hdigits)
  have hblank : ∀ c ∈ " ab x".toList.head?, Text.isBlank c = true := by rintro _ ⟨⟩; rfl
  have htokens : Tokens (String.ofList digits ++ " ab x") [String.ofList digits, "ab", "x"] := by
    simpa [Tokens] using Text.Spaced.word (b := []) (by simp) hword hblank hrest
  have hrefused : Numeral.Refused (String.ofList digits).toList (.tooLong 4301) := by
    rw [String.toList_ofList, ← hlength]
    exact hdigits.refused (by rw [hlength]; decide)
  obtain ⟨-, -, -, hlong⟩ := transition_follows_grammar (String.ofList digits ++ " ab x") none
  exact ⟨String.ofList digits, by simpa using hlength, (hlong _ "ab" "x" htokens).2.1 4301 hrefused⟩

end Line

end Acceptor
