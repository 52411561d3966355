import Acceptor.Operation
import Acceptor.OrderedMap

/-!
# The edges of one state, unchecked

A `State` maps symbols to targets in order of first arrival, the last target given for a symbol
winning. Symbols may be any keys and targets any values until an automaton is made.
-/

namespace Acceptor

structure State where
  edges : OrderedMap Value Value

namespace State

def empty : State := ⟨∅⟩

/-- Adds an edge for a symbol that is known to be a key. -/
def insert (s : State) (symbol target : Value) : State := ⟨s.edges.insert symbol target⟩

/-- Adds an edge. -/
def adding (symbol target : Value) : Operation State Unit := do
  symbol.checkKey
  modify fun s => s.insert symbol target

def addTransition (s : State) (symbol target : Value) : Except Fault State := (adding symbol target).outcome s

def target? (s : State) (symbol : Value) : Except Fault (Option Value) := do
  symbol.checkKey
  return s.edges.find? symbol

def size (s : State) : Nat := s.edges.size

def symbols (s : State) : List Value := s.edges.keys

/-- The edges in order of first arrival, where `room` values can stand in each other. -/
def toText (s : State) (room : Nat) : Except Fault String :=
  let edge (e : Value × Value) := e.1.literal ++ ": " ++ e.2.literal
  match (Value.list (s.edges.entries.flatMap fun e => [e.1, e.2])).limit? room with
  | some limit => .error (.unwritable limit)
  | none => .ok ("State(\x7b" ++ ", ".intercalate (s.edges.entries.map edge) ++ "\x7d)")

/-- Equality forgets the order of the edges. -/
instance : BEq State := ⟨fun s t => s.edges == t.edges⟩

end State

end Acceptor
