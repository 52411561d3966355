import Acceptor.Automaton.Basic

/-!
# The dense transition table

`Automaton.table` numbers the states in ascending order (rows) and the symbols of the alphabet in
ascending order (columns), and holds for each row and column the row that the edge leads to.
-/

namespace Acceptor

structure Table where
  states : List Int
  symbols : List Char
  /-- For each row the target rows, by column. -/
  cells : List (List Nat)
  initialRow : Nat
  finalRows : List Bool
deriving DecidableEq, Repr

namespace Table

def height (t : Table) : Nat := t.states.length

def width (t : Table) : Nat := t.symbols.length

def cell? (t : Table) (row column : Nat) : Option Nat := t.cells[row]?.bind (·[column]?)

def isFinal (t : Table) (row : Nat) : Bool := t.finalRows.getD row false

/-- How many of the targets each row is. -/
def countRows (t : Table) (targets : List Nat) : List Nat :=
  (List.range t.height).map fun row => targets.count row

/-- How many symbols lead from row to row. -/
def adjacency (t : Table) : List (List Nat) := t.cells.map t.countRows

end Table

namespace Automaton

variable (d : Automaton)

/-- The table with the given states as rows and the given symbols as columns. -/
def tableOn (states : List Int) (symbols : List Char) : Table where
  states := states
  symbols := symbols
  cells := states.map fun q => symbols.filterMap fun c => (d.target? q c).map (states.idxOf ·)
  initialRow := states.idxOf initial
  finalRows := states.map d.finals.contains

def table : Table := d.tableOn d.states d.alphabet

end Automaton

end Acceptor
