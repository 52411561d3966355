import Acceptor.Automaton.Wide
import Acceptor.Description.Reading

/-!
# Writing a description

`Automaton.format` writes the final states in ascending order and then one line for each edge, by
source and then by symbol. Equal automata have the same text, and reading it gives the automaton
back if it has an edge at all: states stand in the text only as sources.
-/

namespace Acceptor

namespace Automaton

def formatEdge (edge : Int × Char × Int) : String :=
  Numeral.toText edge.1 ++ " " ++ String.singleton edge.2.1 ++ " " ++ Numeral.toText edge.2.2

def formatLines (d : Automaton) : List String :=
  " ".intercalate (d.finals.map Numeral.toText) :: d.edges.map formatEdge

def format (d : Automaton) : String := String.join (d.formatLines.map (· ++ "\n"))

/-- The automaton that its own text describes. -/
def readBack (d : Automaton) : Except Fault Automaton := ofText d.format

end Automaton

namespace WideAutomaton

open Text (CodePoint codePoints)

def formatEdge (edge : Int × CodePoint × Int) : List CodePoint :=
  codePoints (Numeral.toText edge.1 ++ " ") ++ edge.2.1 :: codePoints (" " ++ Numeral.toText edge.2.2 ++ "\n")

variable (d : WideAutomaton)

def format : List CodePoint :=
  codePoints (" ".intercalate (d.finals.map Numeral.toText) ++ "\n") ++ d.rows.edges.flatMap formatEdge

/-- The ids in the order in which they are written. -/
def writtenIds : List Int := d.finals ++ d.rows.edges.flatMap fun e => [e.1, e.2.2]

def text : Except Fault (List CodePoint) :=
  if d.writtenIds.all fun q => decide (Numeral.Short q) then .ok d.format else .error (.unwritable .digits)

end WideAutomaton

end Acceptor
