import Acceptor.Proofs.Calls

/-!
# The prediction of a builder

For every unspent builder that calls lead to, `check` says beforehand what `freeze` and `build` will do
(`check_predicts_freeze`). `check` judges by the alphabet that the builder has collected and `freeze` by
the symbols on its edges; they agree because both are those of the rows that the builder holds.
-/

namespace Acceptor.Builder

theorem check_predicts_freeze {b : Builder} (hb : Reached b) (hs : b.spent = false) :
    (b.check = .ok none ↔ ∃ d, b.freeze.2 = .ok d) ∧
    (∀ d, b.freeze.2 = .ok d →
      d.rows.loose = b.rows ∧ d.finals = ascending b.finals ∧ d.alphabet = b.alphabet) ∧
    (∀ f, b.check = .ok (some f) ↔ b.freeze.2 = .error (.invalid f)) ∧
    (∀ fault, b.freeze.2 = .error fault → ∃ f, fault = .invalid f) ∧
    (b.build.2 = .ok none ↔ ∃ f, b.freeze.2 = .error (.invalid f)) ∧
    (∀ d, b.build.2 = .ok (some d) ↔ b.freeze.2 = .ok d) ∧
    (∃ f?, b.check = .ok f?) ∧ (b.call .check).1 = b := by
  obtain ⟨rows, h⟩ := hb.holds
  have hcheck := h.check
  refine ⟨?_, fun d hd => ?_, fun f => ?_, fun fault hf => ?_, build_eq_none_iff, fun d => build_eq_some_iff,
    ⟨_, hcheck⟩, by rw [call_check]⟩
  · rw [hcheck, Except.ok.injEq, ← h.exists_freeze_iff hs]
  · obtain ⟨-, rfl, hfinals⟩ := (h.freeze_eq_ok_iff hs).1 hd
    exact ⟨h.rows_eq.symm, hfinals, h.alphabet.symm⟩
  · rw [hcheck, Except.ok.injEq, h.freeze_eq_error_iff hs]
    simp
  · obtain ⟨f, hf, -⟩ := (h.freeze_eq_error_iff hs).1 hf
    exact ⟨f, hf⟩

/-- A loop on the initial state, with two refused calls on the way. -/
theorem check_predicts_freeze_of_loop :
    let b := Builder.empty.run [.addFinal (.bool true), .addFinal (.int 0),
      .addTransition (.int 0) (.text "ab") (.int 0), .addTransition (.int 0) (.text "a") (.int 0)]
    Reached b ∧ b.spent = false ∧ b.check = .ok none ∧ ∃ d, b.freeze.2 = .ok d ∧ d.alphabet = ['a'] := by
  intro b
  have hb : Reached b := Reached.empty.run _
  have hs : b.spent = false := rfl
  have hcheck : b.check = .ok none := rfl
  have h := check_predicts_freeze hb hs
  obtain ⟨d, hd⟩ := h.1.1 hcheck
  exact ⟨hb, hs, hcheck, d, hd, (h.2.1 d hd).2.2⟩

end Acceptor.Builder
