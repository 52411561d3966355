import Acceptor.Fault

/-!
# Complete deterministic automata

An `Automaton` has integer states, of which `0` is the initial one, and one edge for each state and
each symbol of its alphabet; the alphabet is whatever symbols the edges have, none of them blank. The
rules of `Complete` are part of the type. `run` follows the edges along a word and ends in a state
unless a character is outside the alphabet; `accepts` asks whether that state is final. Final states
need not have a row.
-/

namespace Acceptor

/-- All edges, by source and then by symbol. -/
def Rows.edges {σ : Type} [BEq σ] [LT σ] [DecidableLT σ] (rows : Rows Int σ) : List (Int × σ × Int) :=
  let symbols := ascending rows.symbols
  (ascending rows.keys).flatMap fun q =>
    symbols.filterMap fun c => ((rows.find? q).bind (·.find? c)).map fun t => (q, c, t)

structure Automaton where
  rows : Rows Int Char
  finals : List Int
  complete : Complete 0 rows finals rows.symbols
  finals_ascending : finals.Pairwise (· < ·)
  not_isBlank : ∀ c ∈ rows.symbols, Text.isBlank c = false

namespace Automaton

def initial : Int := 0

/-- The automaton with these rows and final states, unless a rule is broken. -/
def ofRows (rows : Rows Int Char) (finals : List Int)
    (hs : ∀ c ∈ rows.symbols, Text.isBlank c = false) : Except Failure Automaton :=
  match h : failure? initial rows (ascending finals) rows.symbols with
  | some failure => .error failure
  | none => .ok ⟨rows, ascending finals, failure?_eq_none_iff.1 h, pairwise_ascending finals, hs⟩

variable (d : Automaton)

def states : List Int := ascending d.rows.keys

def alphabet : List Char := ascending d.rows.symbols

/-- The state that the edge for `c` leads to from `q`. -/
def target? (q : Int) (c : Char) : Option Int := (d.rows.find? q).bind (·.find? c)

def edges : List (Int × Char × Int) := d.rows.edges

/-- The state reached from `q`, or `none` if a character is outside the alphabet. -/
def runFrom (q : Int) : List Char → Option Int
  | [] => some q
  | c :: w => (d.target? q c).bind fun t => runFrom t w

def run (w : String) : Option Int := d.runFrom initial w.toList

def accepts (w : String) : Bool := (d.run w).any d.finals.contains

/-- Edges and final states, the same for equal automata. -/
def key : List (Int × Char × Int) × List Int := (d.edges, d.finals)

/-- Equality forgets the order in which rows and edges were given. -/
def same (d e : Automaton) : Bool :=
  d.finals == e.finals && d.states == e.states && d.edges == e.edges

instance : BEq Automaton := ⟨same⟩

end Automaton

end Acceptor
