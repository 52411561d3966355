import Acceptor.Analysis.Table
import Acceptor.Proofs.Automaton

/-!
# What the table of an automaton holds

A row stands for the state at its place among the states, a column for the symbol at its place in the
alphabet. The cell of a state and a symbol holds the row of the target (`cell?_table`), and there is one for
every state and symbol because the automaton is complete.
-/

namespace Acceptor

theorem Table.getElem?_countRows (t : Table) (targets : List Nat) (r : Nat) :
    (t.countRows targets)[r]? = if r < t.height then some (targets.count r) else none := by
  rw [countRows, List.getElem?_map]
  split
  · next h => rw [List.getElem?_range h]; rfl
  · next h => rw [List.getElem?_eq_none (by rw [List.length_range]; omega)]; rfl

namespace Automaton

variable {d : Automaton} {q : Int} {c : Char} {row column : Nat}

theorem getElem?_idxOf_states (h : d.rows.contains q = true) : d.states[d.states.idxOf q]? = some q :=
  List.getElem?_idxOf (mem_states.2 h)

theorem contains_of_getElem?_states (h : d.states[row]? = some q) : d.rows.contains q = true :=
  mem_states.1 (List.mem_of_getElem? h)

theorem getElem?_initialRow (d : Automaton) : d.states[d.table.initialRow]? = some initial :=
  getElem?_idxOf_states d.contains_initial

theorem isFinal_table (h : d.states[row]? = some q) : d.table.isFinal row = d.finals.contains q := by
  show (d.states.map d.finals.contains).getD row false = _
  rw [List.getD_eq_getElem?_getD, List.getElem?_map, h]; rfl

theorem getElem?_cells (hq : d.states[row]? = some q) :
    d.table.cells[row]? = some (d.alphabet.filterMap fun c => (d.target? q c).map (d.states.idxOf ·)) := by
  show (d.states.map _)[row]? = _
  rw [List.getElem?_map, hq]; rfl

theorem cells_table (d : Automaton) :
    d.table.cells = d.states.map fun q => d.alphabet.map fun c => d.states.idxOf ((d.target? q c).getD q) := by
  exact List.map_congr_left fun q hq => filterMap_target? (mem_states.1 hq) fun _ t => d.states.idxOf t

/-- The cell of a state and a symbol leads to the row of the target. -/
theorem cell?_table (hq : d.states[row]? = some q) (hc : d.alphabet[column]? = some c) :
    ∃ t, d.target? q c = some t ∧ d.rows.contains t = true ∧
      d.table.cell? row column = some (d.states.idxOf t) := by
  obtain ⟨t, ht⟩ := exists_target? (contains_of_getElem?_states hq) (List.mem_of_getElem? hc)
  refine ⟨t, ht, contains_of_target? ht, ?_⟩
  rw [Table.cell?, cells_table, List.getElem?_map, hq, Option.map_some, Option.bind_some, List.getElem?_map, hc,
    Option.map_some, ht]; rfl

end Automaton

end Acceptor
