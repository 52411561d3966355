/-!
# Log levels

The log is a list of records. A level decides only which of them are shown.
-/

namespace Acceptor.Command

inductive Level where
  | debug
  | info
  | warning
  | error
  | critical
deriving DecidableEq, Repr

namespace Level

/-- All levels, the least severe first. -/
def all : List Level := [.debug, .info, .warning, .error, .critical]

def name : Level → String
  | .debug => "DEBUG"
  | .info => "INFO"
  | .warning => "WARNING"
  | .error => "ERROR"
  | .critical => "CRITICAL"

def rank : Level → Nat
  | .debug => 0
  | .info => 1
  | .warning => 2
  | .error => 3
  | .critical => 4

def ofName? (s : String) : Option Level := all.find? fun level => level.name == s

end Level

structure Record where
  level : Level
  text : String
deriving DecidableEq, Repr

/-- A record is shown from its own level down. -/
def Record.shownAt (threshold : Level) (r : Record) : Bool := threshold.rank ≤ r.level.rank

def Record.line (r : Record) : String := r.level.name ++ ": " ++ r.text ++ "\n"

end Acceptor.Command
