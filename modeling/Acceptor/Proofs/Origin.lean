import Acceptor.Files
import Acceptor.Proofs.Calls

/-!
# Where automata come from

An automaton is made from rows and final states that are given directly, collected by a builder or read
from a file (`MadeFrom`). The states of a builder can be edited past every check and unknown to its
alphabet (`Builder.Handled`), so what keeps a wrong automaton from being made is construction alone.
Whatever was done before, the rows and final states are well typed and complete, and the automaton holds
exactly them (`embodies_of_madeFrom`).
-/

namespace Acceptor

namespace Builder

/-- The builder comes from the empty one or from reading lines, by calls of any kind and by edits of its
states, refused ones included. -/
inductive Handled : Builder → Prop
  | empty : Handled .empty
  | read {lines : List Text.RawLine} {b : Builder} (h : ofLines lines = .ok b) : Handled b
  | call {b : Builder} (h : Handled b) (c : Call) : Handled (b.call c).1
  | edit {b : Builder} (h : Handled b) (id symbol target : Value) : Handled ((editing id symbol target).perform b).1

namespace Handled

variable {b b' : Builder}

theorem run (h : Handled b) (calls : List Call) : Handled (b.run calls) := by
  induction calls generalizing b with
  | nil => exact h
  | cons c calls ih => exact ih (h.call c)

theorem edit_of_ok (h : Handled b) {id symbol target : Value} (he : b.edit id symbol target = .ok b') : Handled b' :=
  perform_editing_fst he ▸ h.edit id symbol target

end Handled

end Builder

namespace Automaton

/-- `d` was made from these rows and final states. -/
inductive MadeFrom (d : Automaton) : LooseRows → List Value → Prop
  | direct {rows : LooseRows} {finals : List Value} (h : ofLoose rows finals = .ok d) :
    MadeFrom d rows finals
  | freeze {b : Builder} (hb : b.Handled) (h : b.freeze.2 = .ok d) :
    MadeFrom d b.rows (b.finals.map Value.int)
  | build {b : Builder} (hb : b.Handled) (h : b.build.2 = .ok (some d)) :
    MadeFrom d b.rows (b.finals.map Value.int)
  | load {s : Store} {path : String} {b : Builder} (hb : Builder.ofFile s path = .ok b)
    (h : load s path = .ok d) : MadeFrom d b.rows (b.finals.map Value.int)

/-- The rows and final states are well typed and keep every rule, and `d` holds exactly them. -/
structure Embodies (d : Automaton) (rows : LooseRows) (finals : List Value) : Prop where
  rows_eq : rows = d.rows.loose
  keys : ∀ v, v ∈ rows.keys ↔ ∃ q ∈ d.states, v = .int q
  symbols : ∀ v, v ∈ rows.symbols ↔ ∃ c ∈ d.alphabet, v = .char c
  targets : ∀ v ∈ rows.targets, ∃ t ∈ d.states, v = .int t
  finals : ∀ v, v ∈ finals ↔ ∃ q ∈ d.finals, v = .int q
  not_isBlank : ∀ c ∈ d.alphabet, Text.isBlank c = false
  initial : 0 ∈ d.states
  final : d.finals ≠ []
  alphabet : ∀ c, c ∈ d.alphabet ↔ ∃ q t, (q, c, t) ∈ d.edges
  total : ∀ q ∈ d.states, ∀ c, (∃! t, (q, c, t) ∈ d.edges) ↔ c ∈ d.alphabet
  closed : ∀ q c t, (q, c, t) ∈ d.edges → q ∈ d.states ∧ t ∈ d.states

variable {d : Automaton} {rows : LooseRows} {finals : List Value}

theorem existsUnique_edge_iff {q : Int} {c : Char} (hq : q ∈ d.states) :
    (∃! t, (q, c, t) ∈ d.edges) ↔ c ∈ d.alphabet := by
  simp only [mem_edges]
  constructor
  · rintro ⟨t, ht, -⟩; exact mem_alphabet_of_target? ht
  · intro hc
    obtain ⟨t, ht⟩ := exists_target? (mem_states.1 hq) hc
    exact ⟨t, ht, fun u hu => by rw [ht] at hu; cases hu; rfl⟩

theorem embodies_of_ofLoose (h : ofLoose rows finals = .ok d) : d.Embodies rows finals := by
  obtain ⟨rfl, ids, rfl, hids⟩ := ofLoose_eq_ok_iff.1 h
  have hedge {q : Int} {c : Char} {t : Int} (he : (q, c, t) ∈ d.edges) := mem_edges.1 he
  refine ⟨rfl, fun v => ?_, fun v => ?_, fun v hv => ?_, fun v => ?_, fun c => isBlank_of_mem_alphabet,
    mem_states.2 d.contains_initial, d.finals_ne_nil, fun c => ?_, fun q hq c => existsUnique_edge_iff hq,
    fun q c t he => ⟨mem_states.2 (contains_source (hedge he)),
      mem_states.2 (contains_of_target? (hedge he))⟩⟩
  · simp only [Rows.keys_loose, List.mem_map, states, mem_ascending, eq_comm]
  · simp only [Rows.symbols_loose, List.mem_map, Automaton.alphabet, mem_ascending, eq_comm]
  · rw [Rows.targets_loose, List.mem_map] at hv
    obtain ⟨t, ht, rfl⟩ := hv
    obtain ⟨q, c, hqc⟩ := Rows.mem_targets_iff.1 ht
    exact ⟨t, mem_states.2 (contains_of_target? hqc), rfl⟩
  · simp only [hids, List.mem_map, mem_ascending, eq_comm]
  · simp only [mem_edges, mem_alphabet]

theorem ofLoose_of_freeze {b : Builder} (h : b.freeze.2 = .ok d) :
    ofLoose b.rows (b.finals.map Value.int) = .ok d := by
  cases hs : b.spent with
  | true => rw [Builder.freeze_of_spent hs] at h; cases h
  | false => rwa [Builder.freeze_of_unspent hs] at h

theorem embodies_of_madeFrom (h : MadeFrom d rows finals) : d.Embodies rows finals := by
  cases h with
  | direct h => exact embodies_of_ofLoose h
  | freeze _ h => exact embodies_of_ofLoose (ofLoose_of_freeze h)
  | build _ h => exact embodies_of_ofLoose (ofLoose_of_freeze (Builder.build_eq_some_iff.1 h))
  | load hb h =>
    obtain ⟨b', hb', h⟩ := Except.bind_eq_ok_iff.1 h
    rw [hb] at hb'; cases hb'
    exact embodies_of_ofLoose (ofLoose_of_freeze h)

/-- An edge that the alphabet of the builder does not know of. -/
theorem embodies_of_madeFrom_edited :
    ∃ b b' d, Builder.Handled b ∧ b.edit (.int 0) (.text "b") (.int 0) = .ok b' ∧ b'.alphabet = ['a'] ∧
      MadeFrom d b'.rows (b'.finals.map Value.int) ∧ d.Embodies b'.rows (b'.finals.map Value.int) ∧
      d.alphabet = ['a', 'b'] := by
  let b := Builder.empty.run [.addFinal (.int 0), .addTransition (.int 0) (.text "a") (.int 0)]
  have hb : b.Handled := Builder.Handled.empty.run _
  obtain ⟨b', hedit, halphabet, d, hd, hsymbols⟩ : ∃ b', b.edit (.int 0) (.text "b") (.int 0) = .ok b' ∧
      b'.alphabet = ['a'] ∧ ∃ d, b'.freeze.2 = .ok d ∧ d.alphabet = ['a', 'b'] := ⟨_, rfl, rfl, _, rfl, rfl⟩
  have hmade : MadeFrom d b'.rows (b'.finals.map Value.int) := .freeze (hb.edit_of_ok hedit) hd
  exact ⟨b, b', d, hb, hedit, halphabet, hmade, embodies_of_madeFrom hmade, hsymbols⟩

end Automaton

end Acceptor
