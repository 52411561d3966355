import Acceptor.Command.Log
import Acceptor.Fault

/-!
# Transcripts

A transcript is all that a session showed and logged, in order, and how it ended. It is kept whole
whatever the log level, which only selects records in `Transcript.outcome`.
-/

namespace Acceptor.Command

inductive Event where
  | shown (s : String)
  | logged (r : Record)
deriving DecidableEq, Repr

namespace Event

def output : Event → String
  | .shown s => s
  | .logged _ => ""

def record? : Event → Option Record
  | .shown _ => none
  | .logged r => some r

def info (text : String) : Event := .logged ⟨.info, text⟩

def error (text : String) : Event := .logged ⟨.error, text⟩

end Event

/-- How a session ends. -/
inductive Status where
  | exit (code : Nat)
  /-- A fault that no message covers. -/
  | escaped (fault : Fault)

structure Transcript where
  events : List Event
  status : Status
  /-- The replies that were never asked for. -/
  unread : List String

def Transcript.after (events : List Event) (t : Transcript) : Transcript :=
  { t with events := events ++ t.events }

/-- What a run of the program leaves behind. -/
structure Outcome where
  status : Status
  output : String
  log : String

namespace Transcript

variable (t : Transcript)

/-- All records, whatever the level. -/
def records : List Record := t.events.filterMap Event.record?

def outcome (level : Level) : Outcome where
  status := t.status
  output := String.join (t.events.map Event.output)
  log := String.join ((t.records.filter (·.shownAt level)).map Record.line)

end Transcript

end Acceptor.Command
