import Acceptor.Proofs.Loose
import Acceptor.Proofs.Rules
import Mathlib.Data.List.Perm.Basic

/-!
# The verdict on loose rows

Of rows with values of any kind that can be keys, and of an alphabet that need not be theirs, the verdict is the
first rule that is broken (`Verdict`). It depends on which edges, final states and symbols there are, and not on
the order in which they are listed (`Reordered`), as `failure?_priority` says.
-/

namespace Acceptor

namespace Rows

variable {κ σ φ : Type} [BEq κ] [BEq σ] {rows rows' : Rows κ σ} {e f : κ × OrderedMap σ κ} {t : κ}
  {alphabet : List σ}

/-- The same state with the same edges, listed in any order. -/
def SameRow (e f : κ × OrderedMap σ κ) : Prop := e.1 = f.1 ∧ e.2.entries.Perm f.2.entries

/-- The same states, each with the same edges, both listed in any order. -/
def Reordered (rows rows' : Rows κ σ) : Prop :=
  Relation.Comp List.Perm (List.Forall₂ SameRow) rows.entries rows'.entries

namespace Reordered

theorem symm (h : Reordered rows rows') : Reordered rows' rows := by
  obtain ⟨entries, hperm, hrows⟩ := h
  have hback : List.Forall₂ SameRow rows'.entries entries :=
    hrows.flip.imp fun _ _ h => ⟨h.1.symm, h.2.symm⟩
  have hcomp : Relation.Comp (List.Forall₂ SameRow) List.Perm rows'.entries rows.entries :=
    ⟨entries, hback, hperm.symm⟩
  rwa [List.forall₂_comp_perm_eq_perm_comp_forall₂] at hcomp

theorem exists_sameRow (h : Reordered rows rows') (he : e ∈ rows.entries) : ∃ f ∈ rows'.entries, SameRow e f := by
  obtain ⟨entries, hperm, hrows⟩ := h
  exact exists_of_forall₂ hrows.flip (hperm.mem_iff.1 he)

theorem contains_of_contains (h : Reordered rows rows') {k : κ} (hk : rows.contains k = true) :
    rows'.contains k = true := by
  obtain ⟨e, he, hek⟩ := List.any_eq_true.1 hk
  obtain ⟨f, hf, hkey, -⟩ := h.exists_sameRow he
  exact List.any_eq_true.2 ⟨f, hf, hkey ▸ hek⟩

theorem contains (h : Reordered rows rows') (k : κ) : rows.contains k = rows'.contains k :=
  Bool.eq_iff_iff.2 ⟨h.contains_of_contains, h.symm.contains_of_contains⟩

theorem mem_targets (h : Reordered rows rows') (ht : t ∈ rows.targets) : t ∈ rows'.targets := by
  obtain ⟨row, hrow, ht⟩ := List.mem_flatMap.1 ht
  obtain ⟨e, he, rfl⟩ := List.mem_map.1 hrow
  obtain ⟨f, hf, -, hperm⟩ := h.exists_sameRow he
  exact List.mem_flatMap.2 ⟨f.2, List.mem_map_of_mem hf, (hperm.map _).mem_iff.1 ht⟩

theorem lacks (h : Reordered rows rows') (hlacks : rows.Lacks alphabet) : rows'.Lacks alphabet := by
  obtain ⟨e, he, c, hc, hno⟩ := hlacks
  obtain ⟨f, hf, -, hperm⟩ := h.exists_sameRow he
  have hsame : e.2.contains c = f.2.contains c := hperm.any_eq
  exact ⟨f, hf, c, hc, by rw [← hsame]; exact hno⟩

theorem dangles (h : Reordered rows rows') (hdangles : rows.Dangles) : rows'.Dangles := by
  obtain ⟨e, he, edge, hedge, hno⟩ := hdangles
  obtain ⟨f, hf, -, hperm⟩ := h.exists_sameRow he
  exact ⟨f, hf, edge, hperm.mem_iff.1 hedge, by rw [← h.contains]; exact hno⟩

theorem verdict (h : Reordered rows rows') {initial : κ} {finals : List φ} {v : Option Failure}
    (hv : Verdict initial rows finals alphabet v) : Verdict initial rows' finals alphabet v := by
  cases hv with
  | missingInitialState hinitial => exact .missingInitialState (h.contains initial ▸ hinitial)
  | noFinalStates hinitial hfinal => exact .noFinalStates (h.contains initial ▸ hinitial) hfinal
  | incompleteTransitions hinitial hfinal hlacks =>
    exact .incompleteTransitions (h.contains initial ▸ hinitial) hfinal (h.lacks hlacks)
  | danglingTarget hinitial hfinal hlacks hdangles =>
    exact .danglingTarget (h.contains initial ▸ hinitial) hfinal (mt h.symm.lacks hlacks) (h.dangles hdangles)
  | none hinitial hfinal hlacks hdangles =>
    exact .none (h.contains initial ▸ hinitial) hfinal (mt h.symm.lacks hlacks) (mt h.symm.dangles hdangles)

/-- The verdict does not depend on any order, nor on repetitions of symbols and final states. -/
theorem failure?_eq (h : Reordered rows rows') {initial : κ} {finals finals' : List φ} {alphabet' : List σ}
    (hf : ∀ q, q ∈ finals ↔ q ∈ finals') (ha : ∀ c, c ∈ alphabet ↔ c ∈ alphabet') :
    failure? initial rows finals alphabet = failure? initial rows' finals' alphabet' := by
  have hnil : finals = [] ↔ finals' = [] := by simp only [List.eq_nil_iff_forall_not_mem, hf]
  calc failure? initial rows finals alphabet
      = failure? initial rows' finals alphabet :=
        failure?_eq_iff.2 (h.symm.verdict (verdict_failure? initial rows' finals alphabet))
    _ = failure? initial rows' finals' alphabet' := failure?_congr hnil ha

end Reordered

end Rows

namespace LooseRows

/-- There is always a verdict, it is the first rule that is broken, and it does not depend on any order or
repetition. -/
theorem failure?_priority (rows : LooseRows) (finals alphabet : List Value)
    (ha : ∀ c ∈ alphabet, c.isKey = true) (ht : ∀ t ∈ rows.targets, t.isKey = true) :
    (∃ v, rows.failure? finals alphabet = .ok v) ∧
    (∀ v, rows.failure? finals alphabet = .ok v ↔ Verdict (.int 0) rows finals alphabet v) ∧
    ∀ (rows' : LooseRows) (finals' alphabet' : List Value), rows.Reordered rows' →
      (∀ q, q ∈ finals ↔ q ∈ finals') → (∀ c, c ∈ alphabet ↔ c ∈ alphabet') →
      rows'.failure? finals' alphabet' = rows.failure? finals alphabet := by
  have heq : rows.failure? finals alphabet = .ok (Acceptor.failure? (.int Automaton.initial) rows finals alphabet) :=
    failure?_of_keys ha ht
  refine ⟨⟨_, heq⟩, fun v => ?_, fun rows' finals' alphabet' hrows hfinals halphabet => ?_⟩
  · rw [heq, Except.ok.injEq]; exact failure?_eq_iff
  · have ha' : ∀ c ∈ alphabet', c.isKey = true := fun c hc => ha c ((halphabet c).2 hc)
    have ht' : ∀ t ∈ rows'.targets, t.isKey = true := fun t h => ht t (hrows.symm.mem_targets h)
    rw [heq, failure?_of_keys ha' ht', hrows.failure?_eq hfinals halphabet]

/-- State 1 has no edge for b, and the edge for b leads nowhere: which rule is named depends on the alphabet, and
not on the order of the rows. -/
theorem failure?_priority_reordered :
    ∃ rows rows' : LooseRows, rows.Reordered rows' ∧ rows.Dangles ∧
      rows.failure? [.int 1] [.text "a"] = .ok (some .danglingTarget) ∧
      rows.failure? [.int 1] [.text "a", .text "b"] = .ok (some .incompleteTransitions) ∧
      rows'.failure? [.int 1, .int 1] [.text "b", .text "a", .text "b"] = .ok (some .incompleteTransitions) := by
  let row : OrderedMap Value Value := .ofList [(.text "a", .int 1)]
  let rows : LooseRows := .ofList [(.int 0, .ofList [(.text "a", .int 0), (.text "b", .int 7)]), (.int 1, row)]
  let rows' : LooseRows := .ofList [(.int 1, row), (.int 0, .ofList [(.text "b", .int 7), (.text "a", .int 0)])]
  have hreordered : rows.Reordered rows' :=
    ⟨_, .swap _ _ [], .cons ⟨rfl, .refl _⟩ (.cons ⟨rfl, .swap _ _ []⟩ .nil)⟩
  have htargets : ∀ t ∈ rows.targets, t.isKey = true := by decide
  have hdangles : rows.Dangles := ⟨_, .head _, _, .tail _ (.head _), rfl⟩
  have htotal : ¬ rows.Lacks [.text "a"] := by
    rw [← Rows.any_lacks_iff]; decide
  have hlacks : rows.Lacks [.text "a", .text "b"] := ⟨_, .tail _ (.head _), .text "b", .tail _ (.head _), rfl⟩
  obtain ⟨-, hverdict, -⟩ := failure?_priority rows [.int 1] [.text "a"] (by decide) htargets
  obtain ⟨-, hverdict', hsame⟩ := failure?_priority rows [.int 1] [.text "a", .text "b"] (by decide) htargets
  have hincomplete : rows.failure? [.int 1] [.text "a", .text "b"] = .ok (some .incompleteTransitions) :=
    (hverdict' _).2 (.incompleteTransitions rfl (List.cons_ne_nil _ _) hlacks)
  refine ⟨rows, rows', hreordered, hdangles,
    (hverdict _).2 (.danglingTarget rfl (List.cons_ne_nil _ _) htotal hdangles), hincomplete, ?_⟩
  rw [hsame rows' _ _ hreordered (by simp) (by simp [or_comm])]
  exact hincomplete

end LooseRows

end Acceptor
