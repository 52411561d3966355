import Acceptor.Analysis.Reachability
import Acceptor.Command.Transcript
import Acceptor.Description.Reading

/-!
# Loading a description

`load` reads the contents of a file and makes the automaton they describe, or gives the status that
the program ends with. It says what is logged on the way.
-/

namespace Acceptor.Command

def unreadable (fault : Fault) : Event := .error ("There was an error in the DFA: " ++ fault.message)

def notAutomaton (f : Failure) : Event :=
  .error ("The specified file was successfully parsed, but doesn't represent a valid DFA (" ++ f.reason ++
    ").")

def summary (b : Builder) (path : String) : Event :=
  .info ("Read " ++ Numeral.toText b.states.size ++ " states over alphabet " ++ String.ofList b.alphabet ++
    " from " ++ path)

def unreachedNote (d : Automaton) : List Event :=
  match d.unreachable with
  | [] => []
  | states => [.info ("States never reached from state 0: " ++ (Value.list (states.map .int)).literal)]

/-- The automaton that a builder makes, with what is logged about it. -/
def freeze (b : Builder) : List Event × Except Status Automaton :=
  match b.freeze.2 with
  | .error (.invalid f) => ([notAutomaton f], .error (.exit 2))
  | .error fault => ([], .error (.escaped fault))
  | .ok d => (unreachedNote d, .ok d)

/-- The automaton described by the contents of the file at a path, if there are any. A numeral with
too many digits is the one fault of a description that is not logged. -/
def load (path : String) (contents : Except Fault (List UInt8)) : List Event × Except Status Automaton :=
  match contents.bind fun bytes => Builder.ofSource (.bytes bytes) with
  | .error (.numeralTooLong digits) => ([], .error (.escaped (.numeralTooLong digits)))
  | .error fault => ([unreadable fault], .error (.exit 1))
  | .ok b => (summary b path :: (freeze b).1, (freeze b).2)

end Acceptor.Command
