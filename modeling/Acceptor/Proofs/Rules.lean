import Acceptor.Proofs.Rows

/-!
# The rule that is named

Of the rules that are broken `failure?` names the first (`Verdict`, `failure?_eq_iff`); which one this is can be
read off `contains` and `target?` (`failure?_eq_incompleteTransitions_iff`, `failure?_eq_danglingTarget_iff`).
Judged by some of the symbols only, rows can seem more complete than they are, and that is the one mistake that
can be made (`failure?_of_subset`).
-/

namespace Acceptor

variable {κ σ φ : Type} [BEq κ] [BEq σ] {initial : κ} {rows : Rows κ σ} {finals : List φ}
  {alphabet symbols : List σ}

/-- Some state has no edge for some symbol of the alphabet. -/
def Rows.Lacks (rows : Rows κ σ) (alphabet : List σ) : Prop :=
  ∃ e ∈ rows.entries, ∃ c ∈ alphabet, e.2.contains c = false

/-- Some edge of some state, on whatever symbol, leads to a state without a row. -/
def Rows.Dangles (rows : Rows κ σ) : Prop :=
  ∃ e ∈ rows.entries, ∃ edge ∈ e.2.entries, rows.contains edge.2 = false

/-- The first rule that is broken, or none. -/
inductive Verdict (initial : κ) (rows : Rows κ σ) (finals : List φ) (alphabet : List σ) : Option Failure → Prop
  | missingInitialState (hinitial : rows.contains initial = false) :
    Verdict initial rows finals alphabet (some .missingInitialState)
  | noFinalStates (hinitial : rows.contains initial = true) (hfinal : finals = []) :
    Verdict initial rows finals alphabet (some .noFinalStates)
  | incompleteTransitions (hinitial : rows.contains initial = true) (hfinal : finals ≠ [])
    (hlacks : rows.Lacks alphabet) : Verdict initial rows finals alphabet (some .incompleteTransitions)
  | danglingTarget (hinitial : rows.contains initial = true) (hfinal : finals ≠ [])
    (hlacks : ¬ rows.Lacks alphabet) (hdangles : rows.Dangles) :
    Verdict initial rows finals alphabet (some .danglingTarget)
  | none (hinitial : rows.contains initial = true) (hfinal : finals ≠ []) (hlacks : ¬ rows.Lacks alphabet)
    (hdangles : ¬ rows.Dangles) : Verdict initial rows finals alphabet none

theorem Rows.any_lacks_iff :
    (rows.values.any fun row => alphabet.any fun c => !row.contains c) = true ↔ rows.Lacks alphabet := by
  simp [Rows.Lacks, OrderedMap.values]

theorem Rows.any_dangles_iff : (rows.targets.any fun t => !rows.contains t) = true ↔ rows.Dangles := by
  simp [Rows.Dangles, Rows.targets, OrderedMap.values]

theorem verdict_failure? (initial : κ) (rows : Rows κ σ) (finals : List φ) (alphabet : List σ) :
    Verdict initial rows finals alphabet (failure? initial rows finals alphabet) := by
  unfold failure?
  split
  · next h => exact .missingInitialState (by simpa using h)
  next h =>
  have hinitial : rows.contains initial = true := by simpa using h
  split
  · next h => exact .noFinalStates hinitial (List.isEmpty_iff.1 h)
  next h =>
  have hfinal : finals ≠ [] := mt List.isEmpty_iff.2 h
  split
  · next h => exact .incompleteTransitions hinitial hfinal (Rows.any_lacks_iff.1 h)
  next h =>
  have htotal : ¬ rows.Lacks alphabet := mt Rows.any_lacks_iff.2 h
  split
  · next h => exact .danglingTarget hinitial hfinal htotal (Rows.any_dangles_iff.1 h)
  · next h => exact .none hinitial hfinal htotal (mt Rows.any_dangles_iff.2 h)

theorem Verdict.unique {f g : Option Failure} (h : Verdict initial rows finals alphabet f)
    (h' : Verdict initial rows finals alphabet g) : f = g := by
  cases h <;> cases h' <;> simp_all

theorem failure?_eq_iff {f : Option Failure} :
    failure? initial rows finals alphabet = f ↔ Verdict initial rows finals alphabet f :=
  ⟨fun h => h ▸ verdict_failure? initial rows finals alphabet,
    fun h => (verdict_failure? initial rows finals alphabet).unique h⟩

theorem failure?_eq_missingInitialState (h : rows.contains initial = false) :
    failure? initial rows finals alphabet = some .missingInitialState :=
  failure?_eq_iff.2 (.missingInitialState h)

theorem Rows.Lacks.mono (h : ∀ c ∈ alphabet, c ∈ symbols) (hlacks : rows.Lacks alphabet) : rows.Lacks symbols := by
  obtain ⟨e, he, c, hc, hno⟩ := hlacks
  exact ⟨e, he, c, h c hc, hno⟩

theorem Rows.Lacks.exists_notMem (hlacks : rows.Lacks symbols) (htotal : ¬ rows.Lacks alphabet) :
    ∃ c ∈ symbols, c ∉ alphabet := by
  obtain ⟨e, he, c, hc, hno⟩ := hlacks
  exact ⟨c, hc, fun hmem => htotal ⟨e, he, c, hmem, hno⟩⟩

/-- With fewer symbols the verdict is the same, unless a state lacks a symbol that is left out. -/
theorem failure?_of_subset (initial : κ) (rows : Rows κ σ) (finals : List φ) (h : ∀ c ∈ alphabet, c ∈ symbols) :
    failure? initial rows finals symbols = failure? initial rows finals alphabet ∨
      failure? initial rows finals symbols = some .incompleteTransitions ∧
        (failure? initial rows finals alphabet = some .danglingTarget ∨
          failure? initial rows finals alphabet = none) ∧
        ∃ c ∈ symbols, c ∉ alphabet := by
  have hverdict := verdict_failure? initial rows finals alphabet
  generalize failure? initial rows finals alphabet = verdict at hverdict ⊢
  -- only the third rule looks at the symbols
  cases hverdict with
  | missingInitialState hinitial => exact .inl (failure?_eq_iff.2 (.missingInitialState hinitial))
  | noFinalStates hinitial hfinal => exact .inl (failure?_eq_iff.2 (.noFinalStates hinitial hfinal))
  | incompleteTransitions hinitial hfinal hlacks =>
    exact .inl (failure?_eq_iff.2 (.incompleteTransitions hinitial hfinal (hlacks.mono h)))
  | danglingTarget hinitial hfinal htotal hdangles =>
    by_cases hlacks : rows.Lacks symbols
    · exact .inr ⟨failure?_eq_iff.2 (.incompleteTransitions hinitial hfinal hlacks), .inl rfl,
        hlacks.exists_notMem htotal⟩
    · exact .inl (failure?_eq_iff.2 (.danglingTarget hinitial hfinal hlacks hdangles))
  | none hinitial hfinal htotal hclosed =>
    by_cases hlacks : rows.Lacks symbols
    · exact .inr ⟨failure?_eq_iff.2 (.incompleteTransitions hinitial hfinal hlacks), .inr rfl,
        hlacks.exists_notMem htotal⟩
    · exact .inl (failure?_eq_iff.2 (.none hinitial hfinal hlacks hclosed))

section

variable [LawfulBEq κ]

theorem lacks_iff : (rows.values.any fun row => alphabet.any fun c => !row.contains c) = true ↔
    ∃ q c, rows.contains q = true ∧ c ∈ alphabet ∧ rows.target? q c = none := by
  have htotal : (¬ ∀ row ∈ rows.values, ∀ c ∈ alphabet, row.contains c = true) ↔ _ := not_congr total_iff
  simp only [Classical.not_forall, not_exists, ← Option.eq_none_iff_forall_ne_some, exists_prop] at htotal
  rw [← htotal]; simp

theorem failure?_eq_incompleteTransitions_iff :
    failure? initial rows finals alphabet = some .incompleteTransitions ↔
      rows.contains initial = true ∧ finals ≠ [] ∧
        ∃ q c, rows.contains q = true ∧ c ∈ alphabet ∧ rows.target? q c = none := by
  rw [← lacks_iff, failure?]
  cases rows.contains initial <;> cases finals <;> simp

variable [LawfulBEq σ]

theorem dangles_iff : (rows.targets.any fun t => !rows.contains t) = true ↔
    ∃ q c t, rows.target? q c = some t ∧ rows.contains t = false := by
  have hclosed : (¬ ∀ t ∈ rows.targets, rows.contains t = true) ↔ _ := not_congr closed_iff
  simp only [Classical.not_forall, Bool.not_eq_true, exists_prop] at hclosed
  rw [← hclosed]; simp

theorem failure?_eq_danglingTarget_iff :
    failure? initial rows finals alphabet = some .danglingTarget ↔
      rows.contains initial = true ∧ finals ≠ [] ∧
        (∀ q c, rows.contains q = true → c ∈ alphabet → ∃ t, rows.target? q c = some t) ∧
        ∃ q c t, rows.target? q c = some t ∧ rows.contains t = false := by
  have htotal : (∀ row ∈ rows.values, ∀ c ∈ alphabet, row.contains c = true) ↔
      (rows.values.any fun row => alphabet.any fun c => !row.contains c) = false := by simp
  rw [← dangles_iff, ← total_iff, htotal, failure?]
  generalize (rows.values.any fun row => alphabet.any fun c => !row.contains c) = lacks
  generalize (rows.targets.any fun t => !rows.contains t) = dangles
  cases rows.contains initial <;> cases finals <;> cases lacks <;> simp

end

end Acceptor
