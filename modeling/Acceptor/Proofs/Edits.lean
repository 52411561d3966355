import Acceptor.Proofs.LifeCycle
import Acceptor.Proofs.Origin
import Acceptor.Proofs.Rules

/-!
# The prediction after edits

An edit of a state adds an edge of which the alphabet of the builder is not told, so the alphabet is some of the
symbols on the edges and need not be all of them (`Handled.alphabet_subset`). Judging by it, `check` finds
nothing wrong with a builder that `freeze` accepts. If the edges that were added by edits are well typed
(`HandledTyped`), then all that `check` can miss is a state that lacks a symbol (`check_bounds_freeze`).
-/

namespace Acceptor

theorem Value.eq_char_of_beq {v : Value} {c : Char} (h : (v == .char c) = true) : v = .char c := by
  rw [beq_iff, char, atoms] at h
  cases v with
  | text s =>
    simp only [atoms, List.cons.injEq, Atom.text.injEq, and_true] at h
    rw [h, char]
  | float x => cases hx : x.integer? <;> simp [atoms, hx] at h
  | _ => simp [atoms] at h

theorem OrderedMap.char_mem_keys_insert (m : OrderedMap Value Value) (c : Char) (v : Value) :
    .char c ∈ (m.insert (.char c) v).keys := by
  have hc : (m.insert (.char c) v).contains (.char c) = true := by rw [contains_insert]; simp
  obtain ⟨e, he, hkey⟩ := List.any_eq_true.1 hc
  exact List.mem_map.2 ⟨e, he, Value.eq_char_of_beq hkey⟩

namespace Builder

variable {b b' : Builder}

theorem mem_symbols_rows {v : Value} : v ∈ b.rows.symbols ↔ ∃ q s, b.states.find? q = some s ∧ v ∈ s.symbols := by
  have hvalues : b.rows.values = b.states.values.map State.edges :=
    OrderedMap.values_rename Value.int_beq_int State.edges b.states
  simp only [Rows.symbols, hvalues, List.mem_flatMap, List.mem_map, OrderedMap.mem_values_iff]
  constructor
  · rintro ⟨_, ⟨s, ⟨q, hq⟩, rfl⟩, hv⟩; exact ⟨q, s, hq, hv⟩
  · rintro ⟨q, s, hq, hv⟩; exact ⟨_, ⟨s, ⟨q, hq⟩, rfl⟩, hv⟩

theorem Grows.mem_symbols_rows (h : Grows b b') {v : Value} (hv : v ∈ b.rows.symbols) : v ∈ b'.rows.symbols := by
  obtain ⟨q, s, hq, hv⟩ := Builder.mem_symbols_rows.1 hv
  obtain ⟨s', hq', hprefix⟩ := h.symbols q s hq
  exact Builder.mem_symbols_rows.2 ⟨q, s', hq', hprefix.subset hv⟩

theorem char_mem_symbols_withEdge (b : Builder) (q : Int) (c : Char) (target : Value) :
    .char c ∈ (b.withEdge q (.char c) target).rows.symbols := by
  have hq : (b.withEdge q (.char c) target).states.find? q = some ((b.stateOrEmpty q).insert (.char c) target) := by
    rw [withEdge, OrderedMap.find?_insert, beq_self_eq_true, if_pos rfl]
  exact mem_symbols_rows.2 ⟨q, _, hq, OrderedMap.char_mem_keys_insert _ c target⟩

/-- A symbol is told to the alphabet only when an edge for it has been added, and no edge is ever lost. -/
theorem Handled.alphabet_subset (h : Handled b) : ∀ c ∈ b.alphabet, .char c ∈ b.rows.symbols := by
  induction h with
  | empty => intro c hc; cases hc
  | read h =>
    intro c hc
    obtain ⟨-, rows, hrows⟩ := exists_holds_of_ofLines h
    rw [hrows.alphabet, mem_ascending] at hc
    rw [hrows.rows_eq, Rows.symbols_loose]
    exact List.mem_map_of_mem hc
  | @call b _ call ih =>
    have hgrows := Grows.call b call
    intro c hc
    rcases call_cases b call with ⟨hs, q, rfl⟩ | ⟨hs, t, rfl, ht⟩ | ⟨-, hb⟩ | ⟨-, hb, -⟩
    · rw [call_final hs] at hc
      exact hgrows.mem_symbols_rows (ih c hc)
    · rw [call_transition hs ht] at hc ⊢
      rcases mem_insertOnce.1 hc with rfl | hc
      · exact char_mem_symbols_withEdge b t.source t.symbol (.int t.target)
      · exact (Grows.put b t).mem_symbols_rows (ih c hc)
    · rw [hb] at hc
      exact hgrows.mem_symbols_rows (ih c hc)
    · rw [hb] at hc ⊢
      exact ih c hc
  | @edit b _ id symbol target ih =>
    rcases editing_cases b id symbol target with heq | he
    · rw [heq]; exact ih
    · obtain ⟨q, s, -, -, -, -, heq⟩ := edit_eq_ok_iff.1 he
      rw [heq]
      intro c hc
      exact (Grows.withEdge b q symbol target).mem_symbols_rows (ih c hc)

/-- Like `Handled`, but each edit is for an edge with a symbol and a state id of the right types. -/
inductive HandledTyped : Builder → Prop
  | empty : HandledTyped .empty
  | read {lines : List Text.RawLine} {b : Builder} (h : ofLines lines = .ok b) : HandledTyped b
  | call {b : Builder} (h : HandledTyped b) (c : Call) : HandledTyped (b.call c).1
  | edit {b : Builder} (h : HandledTyped b) (id : Value) {symbol target : Value} {c : Char} {t : Int}
    (hc : symbol.symbol? = some c) (ht : target.stateId? = some t) :
    HandledTyped ((editing id symbol target).perform b).1

theorem HandledTyped.run (h : HandledTyped b) (calls : List Call) : HandledTyped (b.run calls) := by
  induction calls generalizing b with
  | nil => exact h
  | cons c calls ih => exact ih (h.call c)

theorem HandledTyped.handled (h : HandledTyped b) : Handled b := by
  induction h with
  | empty => exact .empty
  | read h => exact .read h
  | call _ c ih => exact ih.call c
  | edit _ id _ _ ih => exact ih.edit id _ _

theorem HandledTyped.hasRows (h : HandledTyped b) : ∃ rows, HasRows b rows := by
  induction h with
  | empty => exact ⟨∅, Holds.empty.hasRows⟩
  | read h =>
    obtain ⟨-, rows, hrows⟩ := exists_holds_of_ofLines h
    exact ⟨rows, hrows.hasRows⟩
  | @call b _ call ih =>
    obtain ⟨rows, hrows⟩ := ih
    rcases call_cases b call with ⟨hs, q, rfl⟩ | ⟨hs, t, rfl, ht⟩ | ⟨-, hb⟩ | ⟨-, hb, -⟩
    · rw [call_final hs]; exact ⟨rows, hrows.congr rfl⟩
    · rw [call_transition hs ht]
      exact ⟨_, (hrows.withEdge t.source t.target ht).congr rfl⟩
    · rw [hb]; exact ⟨rows, hrows.congr rfl⟩
    · rw [hb]; exact ⟨rows, hrows⟩
  | @edit b _ id symbol target c t hc ht ih =>
    obtain ⟨rows, hrows⟩ := ih
    rcases editing_cases b id symbol target with heq | he
    · rw [heq]; exact ⟨rows, hrows⟩
    · obtain ⟨q, s, -, -, -, -, heq⟩ := edit_eq_ok_iff.1 he
      have hblank := Value.isBlank_of_symbol? hc
      obtain rfl := Value.eq_char_of_symbol? hc
      obtain rfl := Value.eq_int_of_stateId? ht
      rw [heq]
      exact ⟨_, hrows.withEdge q t hblank⟩

theorem HasRows.mem_symbols_rows {rows : Rows Int Char} (h : HasRows b rows) {c : Char} :
    .char c ∈ b.rows.symbols ↔ c ∈ rows.symbols := by
  rw [h.rows_eq, Rows.symbols_loose]
  constructor
  · intro hc
    obtain ⟨a, ha, heq⟩ := List.mem_map.1 hc
    have hbeq : (a == c) = true := by rw [← Value.char_beq_char, heq]; simp
    rwa [← eq_of_beq hbeq]
  · exact List.mem_map_of_mem

/-- Of an unspent builder with well-typed rows `check` predicts what `freeze` does, or `freeze` meets a state
that lacks a symbol where `check` found nothing or a target without a row. -/
theorem HasRows.check_or {rows : Rows Int Char} (h : HasRows b rows) (hs : b.spent = false)
    (halphabet : ∀ c ∈ b.alphabet, .char c ∈ b.rows.symbols) :
    (b.check = .ok none ∧ ∃ d, b.freeze.2 = .ok d) ∨
    (∃ f, b.check = .ok (some f) ∧ b.freeze.2 = .error (.invalid f)) ∨
    ((b.check = .ok (some .danglingTarget) ∨ b.check = .ok none) ∧
      b.freeze.2 = .error (.invalid .incompleteTransitions) ∧
      ∃ c, .char c ∈ b.rows.symbols ∧ c ∉ b.alphabet) := by
  have hsubset : ∀ c ∈ b.alphabet, c ∈ rows.symbols := fun c hc => h.mem_symbols_rows.1 (halphabet c hc)
  rw [h.check_eq]
  rcases failure?_of_subset Automaton.initial rows b.finals hsubset with
    heq | ⟨hincomplete, hcheck, c, hc, hmissing⟩
  · rw [← heq]
    cases hf : failure? Automaton.initial rows b.finals rows.symbols with
    | none => exact .inl ⟨rfl, (h.exists_freeze_iff hs).1 hf⟩
    | some f => exact .inr (.inl ⟨f, rfl, (h.freeze_eq_error_iff hs).2 ⟨f, rfl, hf⟩⟩)
  · refine .inr (.inr ⟨?_, (h.freeze_eq_error_iff hs).2 ⟨_, rfl, hincomplete⟩, c, h.mem_symbols_rows.2 hc, hmissing⟩)
    rw [Except.ok.injEq, Except.ok.injEq]; exact hcheck

theorem hasRows_of_freeze {d : Automaton} (h : b.freeze.2 = .ok d) : HasRows b d.rows :=
  ⟨(Automaton.ofLoose_eq_ok_iff.1 (Automaton.ofLoose_of_freeze h)).1, d.not_isBlank⟩

/-- However a builder was handled, its prediction is never too strict, and with well-typed edits it can only
fail to see that a state lacks a symbol. -/
theorem check_bounds_freeze (hb : Handled b) (hs : b.spent = false) :
    (∀ c ∈ b.alphabet, .char c ∈ b.rows.symbols) ∧
    (∀ d, b.freeze.2 = .ok d → b.check = .ok none) ∧
    (HandledTyped b →
      (∃ f?, b.check = .ok f?) ∧
      (∀ f, f ≠ .danglingTarget → b.check = .ok (some f) → b.freeze.2 = .error (.invalid f)) ∧
      (b.check = .ok (some .danglingTarget) →
        b.freeze.2 = .error (.invalid .danglingTarget) ∨
          b.freeze.2 = .error (.invalid .incompleteTransitions)) ∧
      (b.check = .ok none →
        (∃ d, b.freeze.2 = .ok d) ∨
          b.freeze.2 = .error (.invalid .incompleteTransitions) ∧
            ∃ c, .char c ∈ b.rows.symbols ∧ c ∉ b.alphabet)) := by
  have halphabet := hb.alphabet_subset
  refine ⟨halphabet, fun d hd => ?_, fun htyped => ?_⟩
  · rcases (hasRows_of_freeze hd).check_or hs halphabet with ⟨hcheck, -⟩ | ⟨f, -, hf⟩ | ⟨-, hf, -⟩
    · exact hcheck
    · rw [hd] at hf; cases hf
    · rw [hd] at hf; cases hf
  · obtain ⟨rows, hrows⟩ := htyped.hasRows
    have hcases := hrows.check_or hs halphabet
    refine ⟨⟨_, hrows.check_eq⟩, fun f hne hf => ?_, fun hf => ?_, fun hf => ?_⟩
    · rcases hcases with ⟨hcheck, -⟩ | ⟨f', hcheck, hfreeze⟩ | ⟨hcheck | hcheck, -⟩
      all_goals rw [hf] at hcheck; cases hcheck
      · exact hfreeze
      · exact absurd rfl hne
    · rcases hcases with ⟨hcheck, -⟩ | ⟨f', hcheck, hfreeze⟩ | ⟨-, hfreeze, -⟩
      · rw [hf] at hcheck; cases hcheck
      · rw [hf] at hcheck; cases hcheck
        exact .inl hfreeze
      · exact .inr hfreeze
    · rcases hcases with ⟨-, hd⟩ | ⟨f', hcheck, -⟩ | ⟨-, hfreeze⟩
      · exact .inl hd
      · rw [hf] at hcheck; cases hcheck
      · exact .inr hfreeze

/-- An edge for a symbol that the alphabet does not have and the other state lacks: what `check` finds is nothing
or, with a target that has no row, another rule than the one that `freeze` names. -/
theorem check_bounds_freeze_unknown :
    ∃ b b₁ b₂, HandledTyped b ∧ b.edit (.int 0) (.text "b") (.int 0) = .ok b₁ ∧
      b.edit (.int 0) (.text "b") (.int 7) = .ok b₂ ∧
      b₁.check = .ok none ∧ b₁.freeze.2 = .error (.invalid .incompleteTransitions) ∧
      (∃ c, .char c ∈ b₁.rows.symbols ∧ c ∉ b₁.alphabet) ∧
      b₂.check = .ok (some .danglingTarget) ∧
      (b₂.freeze.2 = .error (.invalid .danglingTarget) ∨
        b₂.freeze.2 = .error (.invalid .incompleteTransitions)) := by
  let b := Builder.empty.run [.addFinal (.int 0), .addTransition (.int 0) (.text "a") (.int 1),
    .addTransition (.int 1) (.text "a") (.int 0)]
  have hb : HandledTyped b := HandledTyped.empty.run _
  let b₁ := b.withEdge 0 (.char 'b') (.int 0)
  let b₂ := b.withEdge 0 (.char 'b') (.int 7)
  have hedit₁ : b.edit (.int 0) (.text "b") (.int 0) = .ok b₁ := rfl
  have hedit₂ : b.edit (.int 0) (.text "b") (.int 7) = .ok b₂ := rfl
  have hrows : HasRows b (.ofList [(0, .ofList [('a', 1)]), (1, .ofList [('a', 0)])]) :=
    ⟨rfl, Automaton.isBlank_of_any rfl⟩
  have hrows₁ : HasRows b₁ (.ofList [(0, .ofList [('a', 1), ('b', 0)]), (1, .ofList [('a', 0)])]) :=
    hrows.withEdge (c := 'b') 0 0 (by decide)
  have hrows₂ : HasRows b₂ (.ofList [(0, .ofList [('a', 1), ('b', 7)]), (1, .ofList [('a', 0)])]) :=
    hrows.withEdge (c := 'b') 0 7 (by decide)
  have hcheck₁ : b₁.check = .ok none := hrows₁.check_eq
  have hfreeze₁ : b₁.freeze.2 = .error (.invalid .incompleteTransitions) :=
    (hrows₁.freeze_eq_error_iff rfl).2 ⟨_, rfl, rfl⟩
  have hcheck₂ : b₂.check = .ok (some .danglingTarget) := hrows₂.check_eq
  have hb₁ : HandledTyped b₁ := perform_editing_fst hedit₁ ▸ hb.edit (.int 0) rfl rfl
  have hb₂ : HandledTyped b₂ := perform_editing_fst hedit₂ ▸ hb.edit (.int 0) rfl rfl
  obtain ⟨-, -, htyped₁⟩ := check_bounds_freeze hb₁.handled rfl
  obtain ⟨-, -, htyped₂⟩ := check_bounds_freeze hb₂.handled rfl
  have hmissing : ∃ c, .char c ∈ b₁.rows.symbols ∧ c ∉ b₁.alphabet := by
    rcases (htyped₁ hb₁).2.2.2 hcheck₁ with ⟨d, hd⟩ | ⟨-, hmissing⟩
    · rw [hfreeze₁] at hd; cases hd
    · exact hmissing
  exact ⟨b, b₁, b₂, hb, hedit₁, hedit₂, hcheck₁, hfreeze₁, hmissing, hcheck₂, (htyped₂ hb₂).2.2.1 hcheck₂⟩

end Builder

end Acceptor
