import Acceptor.Proofs.Builder
import Acceptor.Proofs.Line

/-!
# What is read can be added

The reader of lines and the checks of a builder agree on what a transition is. Whatever a line is read as
passes the checks, so an unspent builder takes it; and a symbol that passes them is read from every line that
has it between two short numerals, whatever blanks stand around the three (`reading_agrees_with_checks`).
-/

namespace Acceptor

namespace Text

/-- There are only blanks in the text. -/
def Blanks (s : String) : Prop := ∀ c ∈ s.toList, isBlank c = true

/-- One or more blanks. -/
def Gap (s : String) : Prop := s ≠ "" ∧ Blanks s

instance (s : String) : Decidable (Blanks s) := List.decidableBAll _ s.toList

instance (s : String) : Decidable (Gap s) := inferInstanceAs (Decidable (s ≠ "" ∧ Blanks s))

theorem Gap.head_isBlank {gap : String} (h : Gap gap) (s : List Char) :
    ∀ c ∈ (gap.toList ++ s).head?, isBlank c = true := by
  obtain ⟨c, rest, hgap⟩ := List.exists_cons_of_ne_nil fun hnil => h.1 (String.toList_inj.1 hnil)
  rw [hgap]
  rintro _ ⟨⟩
  exact h.2 c (by rw [hgap]; exact List.mem_cons_self)

end Text

namespace Line

variable {line before gap gap' after : String} {number : Option Int} {t : Transition}

/-- The text of a transition with these blanks around and between its parts. -/
def spread (before gap gap' after : String) (t : Transition) : String :=
  before ++ Numeral.toText t.source ++ gap ++ String.singleton t.symbol ++ gap' ++ Numeral.toText t.target ++ after

theorem words_spread (hbefore : Text.Blanks before) (hgap : Text.Gap gap) (hgap' : Text.Gap gap')
    (hafter : Text.Blanks after) (hc : Text.isBlank t.symbol = false) :
    Text.words (spread before gap gap' after t) =
      [Numeral.toText t.source, String.singleton t.symbol, Numeral.toText t.target] := by
  apply words_eq
  -- from the end of the line to its beginning
  have htarget := Text.Spaced.word hgap'.2 (isWord_toText t.target)
    (fun c hc => hafter c (List.mem_of_mem_head? hc)) (.blank hafter)
  have hsymbol := Text.Spaced.word hgap.2 (Text.isWord_singleton hc)
    (by rw [List.append_assoc]; exact hgap'.head_isBlank _) htarget
  have hsource := Text.Spaced.word hbefore (isWord_toText t.source)
    (by rw [List.append_assoc]; exact hgap.head_isBlank _) hsymbol
  have hline : (spread before gap gap' after t).toList =
      before.toList ++ (Numeral.toText t.source).toList ++ (gap.toList ++ (String.singleton t.symbol).toList ++
        (gap'.toList ++ (Numeral.toText t.target).toList ++ after.toList)) := by
    simp [spread]
  rw [hline]
  exact hsource.blankSeparated_eq

theorem reads_spread (hbefore : Text.Blanks before) (hgap : Text.Gap gap) (hgap' : Text.Gap gap')
    (hafter : Text.Blanks after) (hc : Text.isBlank t.symbol = false) (hs : Numeral.Short t.source)
    (ht : Numeral.Short t.target) : Reads (spread before gap gap' after t) t :=
  ⟨_, _, words_spread hbefore hgap hgap' hafter hc, Numeral.read_toText hs, Numeral.read_toText ht⟩

theorem checkSymbol_of_transition (h : transition line number = .ok t) :
    checkSymbol (.char t.symbol) = .ok t.symbol :=
  checkSymbol_char (transition_eq_ok_iff.1 h).isBlank

end Line

namespace Builder

variable {b : Builder} {line : String} {number : Option Int}

theorem exists_addTransition_of_read (hb : b.spent = false) {t : Transition}
    (h : Line.transition line number = .ok t) :
    ∃ b', b.addTransition (.int t.source) (.char t.symbol) (.int t.target) = .ok b' ∧ b'.spent = false :=
  ⟨b.put t, addTransition_typed hb t (Line.transition_eq_ok_iff.1 h).isBlank, hb⟩

theorem exists_addFinal (hb : b.spent = false) (q : Int) :
    ∃ b', b.addFinal (.int q) = .ok b' ∧ b'.spent = false :=
  ⟨_, addFinal_int hb q, hb⟩

end Builder

namespace Line

/-- What is read passes the checks of a builder, and what passes them is read, however it is spread over a
line. A symbol that they refuse is read from no line. -/
theorem reading_agrees_with_checks :
    (∀ line number t, transition line number = .ok t →
      checkStateId (.int t.source) = .ok t.source ∧ checkSymbol (.char t.symbol) = .ok t.symbol ∧
      checkStateId (.int t.target) = .ok t.target ∧
      ∀ b : Builder, b.spent = false → ∃ b',
        b.addTransition (.int t.source) (.char t.symbol) (.int t.target) = .ok b' ∧ b'.spent = false) ∧
    (∀ line number ids, finalStates line number = .ok ids → ∀ q ∈ ids,
      checkStateId (.int q) = .ok q ∧
      ∀ b : Builder, b.spent = false → ∃ b', b.addFinal (.int q) = .ok b' ∧ b'.spent = false) ∧
    (∀ s v c t number, Numeral.Short s → Numeral.Short t → checkSymbol v = .ok c →
      v = .text (String.singleton c) ∧
      transition (Numeral.toText s ++ " " ++ String.singleton c ++ " " ++ Numeral.toText t) number =
        .ok ⟨s, c, t⟩ ∧
      ∀ before gap gap' after, Text.Blanks before → Text.Gap gap → Text.Gap gap' → Text.Blanks after →
        transition (spread before gap gap' after ⟨s, c, t⟩) number = .ok ⟨s, c, t⟩) ∧
    ∀ c fault, checkSymbol (.char c) = .error fault →
      ∀ line number t, transition line number = .ok t → t.symbol ≠ c := by
  refine ⟨fun line number t h => ?_, fun line number ids _ q _ => ?_, fun s v c t number hs ht hv => ?_,
    fun c fault hc line number t h => ?_⟩
  · exact ⟨checkStateId_int _, checkSymbol_of_transition h, checkStateId_int _,
      fun b hb => Builder.exists_addTransition_of_read hb h⟩
  · exact ⟨checkStateId_int q, fun b hb => Builder.exists_addFinal hb q⟩
  · have hblank := isBlank_of_checkSymbol hv
    exact ⟨checkSymbol_eq_ok hv, transition_eq_ok_iff.2 (reads_formatEdge hblank hs ht),
      fun before gap gap' after h₁ h₂ h₃ h₄ =>
        transition_eq_ok_iff.2 (reads_spread (t := ⟨s, c, t⟩) h₁ h₂ h₃ h₄ hblank hs ht)⟩
  · rintro rfl
    rw [checkSymbol_of_transition h] at hc; cases hc

/-- A sign as a symbol between blanks of several kinds, and a control character that is blank. -/
theorem reading_agrees_with_checks_wide :
    checkSymbol (.char '+') = .ok '+' ∧ Text.Blanks "\u3000" ∧ Text.Gap "\u2003\x1c" ∧ Text.Gap "\t" ∧
    Text.Blanks "\n" ∧ transition "\u3000-12\u2003\x1c+\t0\n" none = .ok ⟨-12, '+', 0⟩ ∧
    (∃ b, Builder.empty.addTransition (.int (-12)) (.char '+') (.int 0) = .ok b ∧ b.spent = false) ∧
    checkSymbol (.char '\x1f') = .error (.notSymbol (.char '\x1f')) ∧
    ∀ line number t, transition line number = .ok t → t.symbol ≠ '\x1f' := by
  obtain ⟨hread, -, hspread, hrefused⟩ := reading_agrees_with_checks
  have hsymbol : checkSymbol (.char '+') = .ok '+' := rfl
  have hbefore : Text.Blanks "\u3000" := by decide
  have hwide : Text.Gap "\u2003\x1c" := by decide
  have htab : Text.Gap "\t" := by decide
  have hafter : Text.Blanks "\n" := by decide
  have htext : spread "\u3000" "\u2003\x1c" "\t" "\n" ⟨-12, '+', 0⟩ = "\u3000-12\u2003\x1c+\t0\n" := by
    decide +kernel
  have hline : transition "\u3000-12\u2003\x1c+\t0\n" none = .ok ⟨-12, '+', 0⟩ := by
    rw [← htext]
    exact (hspread (-12) _ '+' 0 none (by decide) (by decide) hsymbol).2.2 _ _ _ _ hbefore hwide htab hafter
  exact ⟨hsymbol, hbefore, hwide, htab, hafter, hline, (hread _ _ _ hline).2.2.2 .empty rfl, rfl,
    hrefused '\x1f' _ rfl⟩

end Line

end Acceptor
