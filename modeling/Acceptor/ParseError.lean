import Acceptor.Text.Quoted
import Acceptor.Numeral

/-!
# Errors in a description

A `ParseError` has a cause, and it knows the number of the line and the line itself where it has one.
The cause fixes the kind of the error and its wording.
-/

namespace Acceptor

namespace ParseError

inductive Kind where
  | description
  | noContent
  | finalState
  | lineShape
  | symbol
  | stateId
  | encoding
deriving DecidableEq, Repr

/-- The wording of an error of which only the kind is known. -/
def Kind.summary : Kind → String
  | .description => "invalid DFA description"
  | .noContent => "input contains no DFA description"
  | .finalState => "final state ids must be integers"
  | .lineShape => "transition lines must have exactly 3 tokens"
  | .symbol => "transition symbol must be a single character"
  | .stateId => "state ids must be integers"
  | .encoding => "input is not valid UTF-8"

inductive Cause where
  | finalNotInteger (token : String)
  | tokenCount (count : Nat)
  | sourceNotInteger (token : String)
  | symbolTooLong (token : String)
  | targetNotInteger (token : String)
  | undecodable (byte : UInt8)
  /-- An error of the kind in the words of whoever reports it; no words stand for the summary. -/
  | stated (kind : Kind) (wording : String)
deriving DecidableEq, Repr

def Cause.noContent : Cause := .stated .noContent ""

def Cause.kind : Cause → Kind
  | .finalNotInteger _ => .finalState
  | .tokenCount _ => .lineShape
  | .sourceNotInteger _ => .stateId
  | .symbolTooLong _ => .symbol
  | .targetNotInteger _ => .stateId
  | .undecodable _ => .encoding
  | .stated kind _ => kind

def Cause.wording : Cause → String
  | .finalNotInteger token => "final state id " ++ Text.quoted token ++ " is not an integer"
  | .tokenCount count => "expected 3 tokens, got " ++ Numeral.toText count
  | .sourceNotInteger token => "source state " ++ Text.quoted token ++ " is not an integer"
  | .symbolTooLong token => "symbol " ++ Text.quoted token ++ " is not a single character"
  | .targetNotInteger token => "target state " ++ Text.quoted token ++ " is not an integer"
  | .undecodable byte => "cannot decode byte " ++ Text.quotedByte byte ++ " as UTF-8"
  | .stated kind wording => if wording = "" then kind.summary else wording

end ParseError

structure ParseError where
  cause : ParseError.Cause
  lineNumber : Option Int
  line : Option String
deriving DecidableEq, Repr

namespace ParseError

def kind (e : ParseError) : Kind := e.cause.kind

/-- The wording, behind the number of the line where there is one. -/
def message (e : ParseError) : String :=
  match e.lineNumber with
  | some n => "line " ++ Numeral.toText n ++ ": " ++ e.cause.wording
  | none => e.cause.wording

end ParseError

end Acceptor
