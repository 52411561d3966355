import Acceptor.Proofs.Line

/-!
# What is wrong with a line

A list of final states has the fault of its first token that cannot be read (`FinalsFault`). A transition
is looked at token by token, but first of all the tokens are counted (`TransitionFault`). Reading fails
with exactly these faults (`finalStates_eq_error_iff`, `transition_eq_error_iff`). Each is an error that
carries the line and its number, or a numeral that is too long, which carries neither (`Placed`).
-/

namespace Acceptor

namespace Line

variable {line token : String} {number : Option Int} {cause : String → ParseError.Cause} {fault : Fault}

inductive TokenFault (line : String) (number : Option Int) (cause : String → ParseError.Cause)
    (token : String) : Fault → Prop
  | malformed (h : Numeral.Refused token.toList .malformed) :
    TokenFault line number cause token (.parse ⟨cause token, number, some line⟩)
  | tooLong {digits : Nat} (h : Numeral.Refused token.toList (.tooLong digits)) :
    TokenFault line number cause token (.numeralTooLong digits)

inductive FinalsFault (line : String) (number : Option Int) (fault : Fault) : Prop
  | token {before after : List String} {token : String} {ids : List Int}
    (hw : Text.words line = before ++ token :: after)
    (hids : List.Forall₂ (fun token q => Numeral.read token = .ok q) before ids)
    (h : TokenFault line number .finalNotInteger token fault) : FinalsFault line number fault

inductive TransitionFault (line : String) (number : Option Int) : Fault → Prop
  | count (hw : (Text.words line).length ≠ 3) :
    TransitionFault line number (.parse ⟨.tokenCount (Text.words line).length, number, some line⟩)
  | source {source symbol target : String} {fault : Fault} (hw : Text.words line = [source, symbol, target])
    (h : TokenFault line number .sourceNotInteger source fault) : TransitionFault line number fault
  | symbol {source symbol target : String} {q : Int} (hw : Text.words line = [source, symbol, target])
    (hq : Numeral.read source = .ok q) (h : ∀ c, symbol ≠ String.singleton c) :
    TransitionFault line number (.parse ⟨.symbolTooLong symbol, number, some line⟩)
  | target {source target : String} {q : Int} {c : Char} {fault : Fault}
    (hw : Text.words line = [source, String.singleton c, target]) (hq : Numeral.read source = .ok q)
    (h : TokenFault line number .targetNotInteger target fault) : TransitionFault line number fault

/-- The fault is an error with this line and number, or a numeral that is too long. -/
def Placed (line : Option String) (number : Int) (fault : Fault) : Prop :=
  (∃ e, fault = .parse e ∧ e.lineNumber = some number ∧ e.line = line) ∨
    ∃ digits, Numeral.maxDigits < digits ∧ fault = .numeralTooLong digits

theorem integer_eq_error_iff :
    integer line number cause token = .error fault ↔ TokenFault line number cause token fault := by
  unfold integer
  constructor
  · intro h
    split at h
    · cases h
    · next hr => cases h; exact .malformed (Numeral.read_eq_error_iff.1 hr)
    · next hr => cases h; exact .tooLong (Numeral.read_eq_error_iff.1 hr)
  · intro h
    cases h with
    | malformed h => rw [Numeral.read_eq_error_iff.2 h]; rfl
    | tooLong h => rw [Numeral.read_eq_error_iff.2 h]

theorem symbol_eq_error_iff : symbol line number token = .error fault ↔
    (∀ c, token ≠ String.singleton c) ∧ fault = .parse ⟨.symbolTooLong token, number, some line⟩ := by
  constructor
  · intro h
    refine ⟨fun c hc => ?_, ?_⟩
    · rw [symbol_eq_ok_iff.2 hc] at h; cases h
    · unfold symbol at h
      split at h
      · cases h
      · cases h; rfl
  · rintro ⟨htoken, rfl⟩
    unfold symbol
    split
    · next c hc =>
      exact absurd (String.toList_inj.1 (by rw [hc, String.toList_singleton])) (htoken c)
    · rfl

theorem finalStates_eq_error_iff :
    finalStates line number = .error fault ↔ FinalsFault line number fault := by
  rw [finalStates, mapM_eq_error_iff]
  simp only [integer_eq_ok_iff, integer_eq_error_iff]
  constructor
  · rintro ⟨before, token, after, ids, hw, hids, h⟩; exact .token hw hids h
  · rintro ⟨hw, hids, h⟩; exact ⟨_, _, _, _, hw, hids, h⟩

theorem transition_eq_error_iff :
    transition line number = .error fault ↔ TransitionFault line number fault := by
  unfold transition
  constructor
  · intro h
    split at h
    · next source c target hw =>
      rcases Except.bind_eq_error_iff.1 h with hsource | ⟨q, hq, hrest⟩
      · exact .source hw (integer_eq_error_iff.1 hsource)
      rcases Except.bind_eq_error_iff.1 hrest with hsymbol | ⟨b, hb, hlast⟩
      · obtain ⟨hc, rfl⟩ := symbol_eq_error_iff.1 hsymbol
        exact .symbol hw (integer_eq_ok_iff.1 hq) hc
      rcases Except.bind_eq_error_iff.1 hlast with htarget | ⟨t, -, hdone⟩
      · obtain rfl := symbol_eq_ok_iff.1 hb
        exact .target hw (integer_eq_ok_iff.1 hq) (integer_eq_error_iff.1 htarget)
      · cases hdone
    · next hw =>
      cases h
      refine .count fun hl => ?_
      obtain ⟨source, c, target, h⟩ := List.length_eq_three.1 hl
      exact hw source c target h
  · intro h
    cases h with
    | count hw =>
      split
      · next source c target h => rw [h] at hw; exact absurd rfl hw
      · rfl
    | source hw h =>
      rw [hw]
      exact Except.bind_eq_error_iff.2 (.inl (integer_eq_error_iff.2 h))
    | symbol hw hq hc =>
      rw [hw]
      refine Except.bind_eq_error_iff.2 (.inr ⟨_, integer_eq_ok_iff.2 hq, ?_⟩)
      exact Except.bind_eq_error_iff.2 (.inl (symbol_eq_error_iff.2 ⟨hc, rfl⟩))
    | target hw hq h =>
      rw [hw]
      refine Except.bind_eq_error_iff.2 (.inr ⟨_, integer_eq_ok_iff.2 hq, ?_⟩)
      refine Except.bind_eq_error_iff.2 (.inr ⟨_, symbol_eq_ok_iff.2 rfl, ?_⟩)
      exact Except.bind_eq_error_iff.2 (.inl (integer_eq_error_iff.2 h))

theorem TokenFault.placed {n : Int} (h : TokenFault line (some n) cause token fault) :
    Placed (some line) n fault := by
  cases h with
  | malformed => exact .inl ⟨_, rfl, rfl, rfl⟩
  | tooLong h => cases h with | tooLong _ hl => exact .inr ⟨_, hl, rfl⟩

theorem FinalsFault.placed {n : Int} (h : FinalsFault line (some n) fault) : Placed (some line) n fault := by
  obtain ⟨-, -, h⟩ := h
  exact h.placed

theorem TransitionFault.placed {n : Int} (h : TransitionFault line (some n) fault) :
    Placed (some line) n fault := by
  cases h with
  | count => exact .inl ⟨_, rfl, rfl, rfl⟩
  | source _ h => exact h.placed
  | symbol => exact .inl ⟨_, rfl, rfl, rfl⟩
  | target _ _ h => exact h.placed

theorem TokenFault.refused {digits : Nat} (h : TokenFault line number cause token (.numeralTooLong digits)) :
    Numeral.Refused token.toList (.tooLong digits) := by
  cases h with
  | tooLong h => exact h

/-- A numeral that is too long is a token of the line. -/
theorem FinalsFault.exists_token {digits : Nat} (h : FinalsFault line number (.numeralTooLong digits)) :
    ∃ token ∈ Text.words line, Numeral.Refused token.toList (.tooLong digits) := by
  obtain ⟨hw, -, h⟩ := h
  exact ⟨_, by rw [hw]; simp, h.refused⟩

theorem TransitionFault.exists_token {digits : Nat}
    (h : TransitionFault line number (.numeralTooLong digits)) :
    ∃ token ∈ Text.words line, Numeral.Refused token.toList (.tooLong digits) := by
  cases h with
  | source hw h => exact ⟨_, by rw [hw]; simp, h.refused⟩
  | target hw _ h => exact ⟨_, by rw [hw]; simp, h.refused⟩

end Line

end Acceptor
