import Acceptor.Automaton.Basic

/-!
# Automata over code points

A symbol can be a surrogate, though no text that is read has one in it. A `WideAutomaton` is an automaton over all
code points. Where no symbol is a surrogate it is an `Automaton` with its symbols in the wider type
(`Automaton.wide`).
-/

namespace Acceptor

open Text (CodePoint)

structure WideAutomaton where
  rows : Rows Int CodePoint
  finals : List Int
  complete : Complete 0 rows finals rows.symbols
  finals_ascending : finals.Pairwise (· < ·)
  not_isBlank : ∀ c ∈ rows.symbols, c.isBlank = false

namespace Rows

theorem char_beq_char (a b : Char) : (CodePoint.char a == CodePoint.char b) = (a == b) := by
  rw [Bool.eq_iff_iff, beq_iff_eq, beq_iff_eq, CodePoint.char.injEq]

/-- The same edges, with symbols in the wider type. -/
def wide (rows : Rows Int Char) : Rows Int CodePoint := rows.map fun row => row.mapKeys .char char_beq_char

variable {rows : Rows Int Char}

theorem values_wide : rows.wide.values = rows.values.map fun row => row.mapKeys .char char_beq_char := by
  simp [wide, OrderedMap.values, OrderedMap.map]

theorem symbols_wide : rows.wide.symbols = rows.symbols.map CodePoint.char := by
  rw [symbols, values_wide, List.flatMap_map, symbols, List.map_flatMap]
  simp only [OrderedMap.keys_mapKeys]

theorem targets_wide : rows.wide.targets = rows.targets := by
  rw [targets, values_wide, List.flatMap_map, targets]
  simp only [OrderedMap.values_mapKeys]

theorem contains_wide (q : Int) : rows.wide.contains q = rows.contains q := OrderedMap.contains_map _ rows q

/-- The rules do not depend on the type of the symbols. -/
theorem failure?_wide (rows : Rows Int Char) (finals : List Int) :
    failure? 0 rows.wide finals rows.wide.symbols = failure? 0 rows finals rows.symbols := by
  simp only [failure?, contains_wide, symbols_wide, targets_wide, values_wide, List.any_map, Function.comp_def,
    OrderedMap.contains_mapKeys]

end Rows

def Automaton.wide (d : Automaton) : WideAutomaton where
  rows := d.rows.wide
  finals := d.finals
  complete := failure?_eq_none_iff.1 (by rw [Rows.failure?_wide]; exact failure?_eq_none_iff.2 d.complete)
  finals_ascending := d.finals_ascending
  not_isBlank := by
    rw [Rows.symbols_wide, List.forall_mem_map]
    exact d.not_isBlank

end Acceptor
