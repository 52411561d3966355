import Acceptor.Command.Session

/-!
# The program

The outer layer: files, standard input and standard output. It follows a session stage by stage, so
that every prompt is seen before its reply is read.
-/

namespace Acceptor.Command

/-- The contents of a regular file. One that may not be read is there all the same. -/
def readFile (path : String) : IO (Except Fault (List UInt8)) := do
  try return .ok (← IO.FS.readBinFile path).toList
  catch
    | .permissionDenied .. => return .error (.denied path)
    | _ =>
      let isLong := Path.isLong path || (Path.steps path).any Path.isLongName
      return .error (if isLong then .nameTooLong path else .noFile path)

def perform (level : Level) : Event → IO Unit
  | .shown s => do
    IO.print s
    (← IO.getStdout).flush
  | .logged r => if r.shownAt level then IO.eprint r.line else pure ()

def finish : Status → IO UInt32
  | .exit code => return UInt32.ofNat code
  | .escaped fault => throw (IO.userError fault.message)

/-- The replies on the next line of input, none at its end. -/
def readReplies : IO (List String) := do
  let line ← (← IO.getStdin).getLine
  return (Text.replies line).map Text.trim

/-- Follows a session; `ready` are replies that have been read already. -/
partial def follow (level : Level) (words : List String) (stage : Stage) (ready : List String) :
    IO UInt32 := do
  match stage.prompt? with
  | none => finish stage.status
  | some prompt =>
    perform level (.shown prompt)
    match ← (if ready = [] then readReplies else pure ready) with
    | [] => finish stage.status
    | reply :: ready =>
      let path := (Path.ofText reply).toText
      let contents ← match stage with
        | .file => readFile path
        | _ => pure (.error (.noFile path))
      let (events, next) := stage.react (fun _ => contents) words reply
      events.forM (perform level)
      follow level words next ready

def runOptions (options : Options) (level : Level) : IO UInt32 := do
  let path := (Path.ofText (options.file.getD "")).toText
  let contents ← readFile path
  let (events, stage) := Stage.start (fun _ => contents) options
  events.forM (perform level)
  follow level options.strings stage []

end Acceptor.Command

open Acceptor.Command

def main (args : List String) : IO UInt32 := do
  match Request.parse args with
  | .error usage =>
    IO.eprint usage.complaint
    return 2
  | .ok .help =>
    IO.print helpText
    return 0
  | .ok (.run options) =>
    match options.level with
    | none => finish (.escaped .noLevel)
    | some level => runOptions options level
