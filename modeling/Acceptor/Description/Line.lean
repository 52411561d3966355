import Acceptor.Fault

/-!
# The lines of a description

The first line of a description lists the final states. Every other line is a transition: source,
symbol and target. Tokens are separated by blanks. Errors carry the line as given, and its number if
it has one; of several faults in a line the first in reading order is reported, where the number of
tokens comes before all tokens.
-/

namespace Acceptor

structure Transition where
  source : Int
  symbol : Char
  target : Int
deriving DecidableEq, Repr

namespace Line

variable (line : String) (number : Option Int)

def fail {α : Type} (cause : ParseError.Cause) : Except Fault α :=
  .error (.parse ⟨cause, number, some line⟩)

/-- The integer that a token denotes. A numeral with too many digits is a fault without a place. -/
def integer (cause : String → ParseError.Cause) (token : String) : Except Fault Int :=
  match Numeral.read token with
  | .ok n => .ok n
  | .error .malformed => fail line number (cause token)
  | .error (.tooLong digits) => .error (.numeralTooLong digits)

def finalStates : Except Fault (List Int) :=
  (Text.words line).mapM (integer line number .finalNotInteger)

def symbol (token : String) : Except Fault Char :=
  match token.toList with
  | [c] => .ok c
  | _ => fail line number (.symbolTooLong token)

def transition : Except Fault Transition :=
  match Text.words line with
  | [source, c, target] => do
    let source ← integer line number .sourceNotInteger source
    let c ← symbol line number c
    let target ← integer line number .targetNotInteger target
    return ⟨source, c, target⟩
  | tokens => fail line number (.tokenCount tokens.length)

end Line

end Acceptor
