import Acceptor.Automaton.Construction
import Acceptor.Proofs.Ascending
import Acceptor.Proofs.Rows
import Mathlib.Data.List.Basic

/-!
# What an automaton shows

`states`, `alphabet` and `edges` list exactly what `target?` says (`mem_states`, `mem_alphabet`,
`mem_edges`), and an automaton is complete in these terms (`exists_target?`, `contains_of_target?`). So
automata with the same states, the same edges and the same final states show the same lists
(`Alike.edges`), and it is these that `==` finds equal (`beq_iff_alike`). A run follows `target?` and
never leaves the rows (`contains_of_runFrom`).
-/

namespace Acceptor

theorem Rows.mem_edges {σ : Type} [BEq σ] [LawfulBEq σ] [LT σ] [DecidableLT σ]
    [Std.Trichotomous (α := σ) (· < ·)] {rows : Rows Int σ} {q t : Int} {c : σ} :
    (q, c, t) ∈ rows.edges ↔ rows.target? q c = some t := by
  simp only [edges, List.mem_flatMap, List.mem_filterMap, Option.map_eq_some_iff, Prod.mk.injEq, mem_ascending]
  constructor
  · rintro ⟨_, _, _, _, _, h, rfl, rfl, rfl⟩; exact h
  · intro h
    obtain ⟨row, hrow, -⟩ := Option.bind_eq_some_iff.1 h
    exact ⟨q, OrderedMap.mem_keys_iff.2 (OrderedMap.contains_iff.2 ⟨row, hrow⟩), c, mem_symbols_iff.2 ⟨q, t, h⟩,
      t, h, rfl, rfl, rfl⟩

namespace Automaton

variable {d e : Automaton} {q t : Int} {c : Char}

theorem contains_initial (d : Automaton) : d.rows.contains initial = true := d.complete.initial

theorem finals_ne_nil (d : Automaton) : d.finals ≠ [] := d.complete.final

theorem contains_of_target? (h : d.target? q c = some t) : d.rows.contains t = true :=
  (complete_iff.1 d.complete).2.2.2 q c t h

theorem contains_source (h : d.target? q c = some t) : d.rows.contains q = true := by
  obtain ⟨row, hrow, -⟩ := Option.bind_eq_some_iff.1 h
  exact OrderedMap.contains_iff.2 ⟨row, hrow⟩

theorem mem_states : q ∈ d.states ↔ d.rows.contains q = true := by
  rw [states, mem_ascending, OrderedMap.mem_keys_iff]

theorem nodup_states (d : Automaton) : d.states.Nodup := (pairwise_ascending _).nodup

theorem nodup_alphabet (d : Automaton) : d.alphabet.Nodup := (pairwise_ascending _).nodup

theorem mem_alphabet : c ∈ d.alphabet ↔ ∃ q t, d.target? q c = some t := by
  rw [alphabet, mem_ascending, Rows.mem_symbols_iff]; rfl

theorem exists_target? (hq : d.rows.contains q = true) (hc : c ∈ d.alphabet) :
    ∃ t, d.target? q c = some t :=
  (complete_iff.1 d.complete).2.2.1 q c hq (mem_ascending.1 hc)

/-- Nothing is passed over, as a state has an edge for every symbol. -/
theorem filterMap_target? {β : Type} (hq : d.rows.contains q = true) (f : Char → Int → β) :
    (d.alphabet.filterMap fun c => (d.target? q c).map (f c)) =
      d.alphabet.map fun c => f c ((d.target? q c).getD q) := by
  rw [List.filterMap_eq_map_iff_forall_eq_some]
  intro c hc
  obtain ⟨t, ht⟩ := exists_target? hq hc
  rw [ht]; rfl

theorem mem_alphabet_of_target? (h : d.target? q c = some t) : c ∈ d.alphabet :=
  mem_alphabet.2 ⟨q, t, h⟩

theorem isBlank_of_mem_alphabet (h : c ∈ d.alphabet) : Text.isBlank c = false :=
  d.not_isBlank c (mem_ascending.1 h)

theorem isBlank_of_any {symbols : List Char} (h : symbols.any Text.isBlank = false) :
    ∀ c ∈ symbols, Text.isBlank c = false :=
  fun c hc => Bool.eq_false_iff.2 (List.any_eq_false.1 h c hc)

theorem edges_eq (d : Automaton) : d.edges =
    d.states.flatMap fun q => d.alphabet.filterMap fun c => (d.target? q c).map fun t => (q, c, t) := rfl

theorem mem_edges : (q, c, t) ∈ d.edges ↔ d.target? q c = some t := Rows.mem_edges

/-- An automaton without edges has no symbols either. -/
theorem alphabet_eq_nil_iff : d.alphabet = [] ↔ d.edges = [] := by
  rw [List.eq_nil_iff_forall_not_mem, List.eq_nil_iff_forall_not_mem]
  constructor
  · rintro h ⟨q, c, t⟩ he
    exact h c (mem_alphabet_of_target? (mem_edges.1 he))
  · intro h c hc
    obtain ⟨q, t, ht⟩ := mem_alphabet.1 hc
    exact h (q, c, t) (mem_edges.2 ht)

/-- With an edge anywhere every state has one. -/
theorem contains_iff_of_edges (h : d.edges ≠ []) :
    d.rows.contains q = true ↔ ∃ c t, d.target? q c = some t := by
  constructor
  · intro hq
    obtain ⟨c, hc⟩ := List.exists_mem_of_ne_nil _ (mt alphabet_eq_nil_iff.1 h)
    exact ⟨c, exists_target? hq hc⟩
  · rintro ⟨c, t, ht⟩; exact contains_source ht

/-- The same states, edges and final states, whatever the order of rows and edges. -/
structure Alike (d e : Automaton) : Prop where
  contains : ∀ q, d.rows.contains q = e.rows.contains q
  target? : ∀ q c, d.target? q c = e.target? q c
  finals : d.finals = e.finals

namespace Alike

theorem states (h : Alike d e) : d.states = e.states :=
  ascending_congr fun q => by rw [OrderedMap.mem_keys_iff, OrderedMap.mem_keys_iff, h.contains]

theorem alphabet (h : Alike d e) : d.alphabet = e.alphabet :=
  ascending_congr fun c => by
    rw [← mem_ascending, ← mem_ascending (l := e.rows.symbols)]
    show c ∈ d.alphabet ↔ c ∈ e.alphabet
    simp only [mem_alphabet, h.target?]

theorem edges (h : Alike d e) : d.edges = e.edges := by
  simp only [edges_eq, h.states, h.alphabet, h.target?]

theorem beq (h : Alike d e) : (d == e) = true := by
  show same d e = true
  simp [same, h.finals, h.states, h.edges]

end Alike

theorem beq_iff_alike : (d == e) = true ↔ Alike d e := by
  constructor
  · intro h
    change same d e = true at h
    simp only [same, Bool.and_eq_true, beq_iff_eq] at h
    obtain ⟨⟨hfinals, hstates⟩, hedges⟩ := h
    refine ⟨fun q => ?_, fun q c => ?_, hfinals⟩
    · rw [Bool.eq_iff_iff, ← mem_states, ← mem_states, hstates]
    · ext t; rw [← mem_edges, ← mem_edges, hedges]
  · exact Alike.beq

theorem ofRows_eq_ok_iff {rows : Rows Int Char} {finals : List Int}
    (hs : ∀ c ∈ rows.symbols, Text.isBlank c = false) :
    ofRows rows finals hs = .ok d ↔
      failure? initial rows (ascending finals) rows.symbols = none ∧
        d.rows = rows ∧ d.finals = ascending finals := by
  unfold ofRows
  split
  · next f hf => simp [hf]
  · next hf =>
    constructor
    · intro h; cases h; exact ⟨hf, rfl, rfl⟩
    · rintro ⟨-, hr, hf'⟩
      cases d; cases hr; cases hf'; rfl

theorem ofRows_eq_error_iff {rows : Rows Int Char} {finals : List Int}
    (hs : ∀ c ∈ rows.symbols, Text.isBlank c = false) {f : Failure} :
    ofRows rows finals hs = .error f ↔
      failure? initial rows (ascending finals) rows.symbols = some f := by
  unfold ofRows
  split
  · next f' hf => rw [hf]; simp
  · next hf => simp [hf]

/-! ### Runs -/

theorem runFrom_eq_foldlM (d : Automaton) (q : Int) (w : List Char) :
    d.runFrom q w = w.foldlM d.target? q := by
  induction w generalizing q with
  | nil => rfl
  | cons c w ih =>
    rw [runFrom, List.foldlM_cons]
    exact congrArg _ (funext ih)

theorem runFrom_append (d : Automaton) (q : Int) (u v : List Char) :
    d.runFrom q (u ++ v) = (d.runFrom q u).bind fun t => d.runFrom t v := by
  simp only [runFrom_eq_foldlM, List.foldlM_append]; rfl

theorem runFrom_concat {p : Int} {w : List Char} (hw : d.runFrom p w = some q) (ht : d.target? q c = some t) :
    d.runFrom p (w ++ [c]) = some t := by
  rw [runFrom_append, hw, Option.bind_some, runFrom, ht]; rfl

theorem contains_of_runFrom {w : List Char} (hq : d.rows.contains q = true) (h : d.runFrom q w = some t) :
    d.rows.contains t = true := by
  induction w generalizing q with
  | nil => cases h; exact hq
  | cons c w ih =>
    obtain ⟨r, hr, h⟩ := Option.bind_eq_some_iff.1 h
    exact ih (contains_of_target? hr) h

/-- A word with a character outside the alphabet leads nowhere. -/
theorem runFrom_eq_none {w : List Char} (hc : c ∈ w) (h : c ∉ d.alphabet) : d.runFrom q w = none := by
  induction w generalizing q with
  | nil => cases hc
  | cons b w ih =>
    rw [runFrom, Option.bind_eq_none_iff]
    intro t ht
    rcases List.mem_cons.1 hc with rfl | hc
    · exact absurd (mem_alphabet_of_target? ht) h
    · exact ih hc

theorem mem_alphabet_of_runFrom {w : List Char} (h : d.runFrom q w = some t) : ∀ c ∈ w, c ∈ d.alphabet := by
  intro c hc
  by_contra hcd
  rw [runFrom_eq_none hc hcd] at h; cases h

theorem accepts_iff {w : String} :
    d.accepts w = true ↔ ∃ q, d.runFrom initial w.toList = some q ∧ q ∈ d.finals := by
  rw [accepts, run, Option.any_eq_true]
  simp only [List.contains_iff_mem]

end Automaton

end Acceptor
