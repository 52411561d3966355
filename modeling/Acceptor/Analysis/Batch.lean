import Acceptor.Analysis.Table

/-!
# Matching many words at once

`Automaton.acceptsAll` moves all words through the table in lock step, one column of codes per step. The
codes of the alphabet are the columns of the table; two negative codes mark a word that has ended and a
symbol outside the alphabet. A word that has ended stays where it is, and a word with a foreign symbol is
dead from there on; neither looks anything up.
-/

namespace Acceptor

namespace Table

/-- The code that stands behind the end of a word. -/
def ended : Int := -1

/-- The code of a symbol outside the alphabet. -/
def foreign : Int := -2

def code (t : Table) (c : Char) : Int :=
  match t.symbols.idxOf? c with
  | some j => j
  | none => foreign

/-- The place of an index among `n` places; a negative index counts from the last place backwards. -/
def place? (n : Nat) (i : Int) : Option Nat :=
  let j := if i < 0 then i + n else i
  if 0 ≤ j ∧ j < n then some j.toNat else none

/-- What an array of rows and columns gives for two indices. -/
def lookUp? (t : Table) (row column : Int) : Option Nat := do
  t.cell? (← place? t.height row) (← place? t.width column)

/-- How far one word has come. -/
structure Lane where
  row : Nat
  alive : Bool
deriving DecidableEq, Repr

/-- The row and column that a lane looks up on a code, if it looks anything up. -/
def Lane.lookup? (lane : Lane) (code : Int) : Option (Nat × Int) :=
  if (lane.alive && code != foreign) && decide (0 ≤ code) then some (lane.row, code) else none

def advance (t : Table) (lane : Lane) (code : Int) : Lane :=
  { row := match lane.lookup? code with
      | some (row, column) => (t.lookUp? row column).getD row
      | none => lane.row
    alive := lane.alive && code != foreign }

def step (t : Table) (lanes : List Lane) (codes : List Int) : List Lane :=
  List.zipWith t.advance lanes codes

/-- The first `n` columns of a list of rows of codes; rows that are too short have ended there. -/
def columns : Nat → List (List Int) → List (List Int)
  | 0, _ => []
  | n + 1, rows => rows.map (·.headD ended) :: columns n (rows.map List.tail)

def start (t : Table) : Lane := ⟨t.initialRow, true⟩

/-- The columns of codes of the words, as many as the longest word has characters. -/
def codeColumns (t : Table) (words : List String) : List (List Int) :=
  let rows := words.map fun w => w.toList.map t.code
  columns ((rows.map List.length).max?.getD 0) rows

/-- The lanes of the words when all of them have ended. -/
def finish (t : Table) (words : List String) : List Lane :=
  (t.codeColumns words).foldl t.step (words.map fun _ => t.start)

def acceptsAll (t : Table) (words : List String) : List Bool :=
  (t.finish words).map fun lane => lane.alive && t.isFinal lane.row

end Table

def Automaton.acceptsAll (d : Automaton) (words : List String) : List Bool :=
  d.table.acceptsAll words

end Acceptor
