import Acceptor.Builder
import Acceptor.Description.Source

/-!
# Reading a description

`Builder.ofLines` adds what the content lines say, in order: the first declares the final states, the
others add one transition each. It stops at the first line with a fault, whatever comes after it.
-/

namespace Acceptor

namespace Builder

def addFinals (b : Builder) (ids : List Int) : Except Fault Builder :=
  ids.foldlM (fun b q => b.addFinal (.int q)) b

def addLine (b : Builder) (line : Nat × String) : Except Fault Builder := do
  let t ← Line.transition line.2 (some line.1)
  b.addTransition (.int t.source) (.char t.symbol) (.int t.target)

def ofLines (lines : List Text.RawLine) : Except Fault Builder :=
  match contentLines lines with
  | ([], stop) => .error (.parse (stop.getD ⟨.noContent, none, none⟩))
  | (header :: transitions, stop) => do
    let ids ← Line.finalStates header.2 (some header.1)
    let b ← empty.addFinals ids
    let b ← transitions.foldlM addLine b
    match stop with
    | some e => .error (.parse e)
    | none => return b

def ofSource (source : Source) : Except Fault Builder := do
  ofLines (← source.rawLines)

def ofText (s : String) : Except Fault Builder := ofSource (.text s)

end Builder

def Automaton.ofText (s : String) : Except Fault Automaton := do
  (← Builder.ofText s).freeze.2

end Acceptor
