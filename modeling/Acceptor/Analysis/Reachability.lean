import Acceptor.Analysis.Table

/-!
# States that some word reaches

`Automaton.reachable` searches the adjacency matrix breadth first from the initial row, row by row as
it goes. Each row enters the queue at most once, so as many steps as there are rows empty it.
-/

namespace Acceptor

/-- The columns of the positive entries in a row of the adjacency matrix. -/
def Table.successors (t : Table) (row : Nat) : List Nat :=
  ((t.countRows (t.cells.getD row [])).zipIdx.filter fun e => 0 < e.1).map (·.2)

/-- Takes at most `steps` rows from the queue; `seen` holds every row that was ever in it. -/
def search (next : Nat → List Nat) : (steps : Nat) → (seen queue : List Nat) → List Nat
  | 0, seen, _ => seen
  | _ + 1, seen, [] => seen
  | steps + 1, seen, row :: queue =>
    let found := (next row).filter (!seen.contains ·)
    search next steps (seen ++ found) (queue ++ found)

def Table.reachableRows (t : Table) : List Nat :=
  search t.successors t.height [t.initialRow] [t.initialRow]

namespace Automaton

variable (d : Automaton)

/-- The states that some word leads to, ascending. -/
def reachable : List Int :=
  let t := d.table
  ascending (t.reachableRows.filterMap fun row => t.states[row]?)

/-- The states that no word leads to, ascending. -/
def unreachable : List Int := d.states.removeAll d.reachable

end Automaton

end Acceptor
