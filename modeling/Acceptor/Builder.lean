import Acceptor.Automaton.Construction
import Acceptor.State

/-!
# Descriptions under construction

A `Builder` collects final states and transitions and is then frozen into an automaton, once: the
first attempt spends it, whether it succeeds or fails, and a spent builder refuses every further
addition and every further attempt. Each of these is an `Operation`: an addition makes its checks before
it changes anything, an attempt spends the builder before the rules are looked at. The edges of a state
can also be edited directly (`editing`), past every check of types and unknown to the builder's alphabet.
-/

namespace Acceptor

structure Builder where
  states : OrderedMap Int State
  /-- The final states as declared, with repetitions. -/
  finals : List Int
  /-- The symbols added so far, ascending. -/
  alphabet : List Char
  spent : Bool

namespace Builder

def empty : Builder := ⟨∅, [], [], false⟩

def checkUnspent (b : Builder) : Except Fault Unit := if b.spent then .error .spent else .ok ()

/-- Declares a final state. -/
def addingFinal (id : Value) : Operation Builder Unit := do
  (← get).checkUnspent
  let q ← checkStateId id
  modify fun b => { b with finals := b.finals ++ [q] }

/-- The state `q`, without edges if it is new. -/
def stateOrEmpty (b : Builder) (q : Int) : State := (b.states.find? q).getD .empty

/-- Makes `q` a state on first sight. -/
def withState (b : Builder) (q : Int) : Builder := { b with states := b.states.insert q (b.stateOrEmpty q) }

/-- Works on the state `q`, which is part of the builder also if the work is refused halfway. -/
def onState {α : Type} (q : Int) (op : Operation State α) : Operation Builder α := do
  let b ← get
  let (s, result) := op.perform (b.stateOrEmpty q)
  set { b with states := b.states.insert q s }
  result

/-- Adds an edge, and the source as a state on first sight; the target is not added. -/
def addingTransition (source symbol target : Value) : Operation Builder Unit := do
  (← get).checkUnspent
  let q ← checkStateId source
  let c ← checkSymbol symbol
  let _ ← checkStateId target
  modify fun b => b.withState q
  onState q (State.adding symbol target)
  modify fun b => { b with alphabet := insertOnce c b.alphabet }

/-- The state with a given id, and the id, if it is there. -/
def state? (b : Builder) (id : Value) : Except Fault (Option (Int × State)) := do
  id.checkKey
  return id.integer?.bind fun q => (b.states.find? q).map fun s => (q, s)

/-- Adds an edge to a known state without any check of types, also after the builder is spent. -/
def editing (id symbol target : Value) : Operation Builder Unit := do
  match ← (← get).state? id with
  | none => throw .noState
  | some (q, _) => onState q (State.adding symbol target)

/-- The rows collected so far. -/
def rows (b : Builder) : LooseRows :=
  (b.states.map State.edges).mapKeys Value.int Value.int_beq_int

/-- The rule that freezing would find broken, judged by the alphabet collected so far. -/
def check (b : Builder) : Except Fault (Option Failure) :=
  b.rows.failure? (b.finals.map Value.int) (b.alphabet.map Value.char)

/-- Spends the builder on one attempt to make the automaton. -/
def freezing : Operation Builder Automaton := do
  (← get).checkUnspent
  modify fun b => { b with spent := true }
  let b ← get
  Automaton.ofLoose b.rows (b.finals.map Value.int)

/-- Like `freezing`, with `none` where a rule of automata is broken. -/
def building : Operation Builder (Option Automaton) :=
  tryCatch (some <$> freezing) fun
    | .invalid _ => pure none
    | fault => throw fault

def addFinal (b : Builder) (id : Value) : Except Fault Builder := (addingFinal id).outcome b

def addTransition (b : Builder) (source symbol target : Value) : Except Fault Builder :=
  (addingTransition source symbol target).outcome b

def edit (b : Builder) (id symbol target : Value) : Except Fault Builder := (editing id symbol target).outcome b

def freeze (b : Builder) : Builder × Except Fault Automaton := freezing.perform b

def build (b : Builder) : Builder × Except Fault (Option Automaton) := building.perform b

end Builder

end Acceptor
