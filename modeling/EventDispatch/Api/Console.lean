import EventDispatch.Api.Serve
import EventDispatch.Config.Reload
import EventDispatch.Dispatch.Run

/-!
# The console

**Input.** Lines that an operator types.

**Rules.** A line holds a method, a target and perhaps a body, separated by single spaces; a body is
taken for JSON. The word `reload` asks for the configuration to be read again, and `stop` ends the
loop. A response is one line: its status and its body. Before a command is carried out the time since
the one before has passed, and after it everything happens that can.

**Contents**

* `Command`, `Command.ofLine?`
* `Response.text`, `Trace.text`
* `Service.obey`, `Service.takeJournal`
-/

namespace EventDispatch

/-- What an operator asks for. -/
inductive Command where
  /-- An answer to a request. -/
  | request (r : Request)
  /-- To read the configuration again. -/
  | reload
  /-- To end the loop. -/
  | stop

/-- The command of a line, if it is one. -/
def Command.ofLine? (line : List Char) : Option Command :=
  match Text.splitFirst? ' ' line with
  | none =>
    if line = "reload".toList then some reload
    else if line = "stop".toList then some stop
    else none
  | some (verb, rest) =>
    let (target, body) := (Text.splitFirst? ' ' rest).getD (rest, [])
    some (request
      ⟨.ofName (String.ofList verb), .ofText (String.ofList target),
        if body = [] then none else some "application/json", String.ofList body⟩)

/-- A response as one line. -/
def Response.text (r : Response) : String :=
  match r.body with
  | .empty => toString r.status
  | .json v => toString r.status ++ " " ++ v.compact
  | .remark => toString r.status ++ " the request cannot be read"

/-- The value of a field in words. -/
def TraceValue.words : TraceValue → String
  | text s => s
  | number n => toString n
  | event id => id.text

/-- A record as one line. -/
def Trace.text (t : Trace) : String :=
  t.fields.foldl (fun line field => line ++ " " ++ field.1 ++ "=" ++ field.2.words)
    (t.level.name ++ " " ++ t.message)

namespace Service

/-- Carries out a command after some milliseconds; `file` holds the configuration file. -/
def obey (s : Service) (milliseconds : Nat) (file : Option ByteArray)
    (listen : Option SocketAddress) (c : Command) : Option Response × Service :=
  let s := s.advance milliseconds
  match c with
  | .request r =>
    match s.serve r with
    | (response, s) => (some response, s.settle)
  | .reload => (none, (s.reload file listen).settle)
  | .stop => (none, (s.sendShutdown true).2.settle)

/-- What was told since the journal was taken last, first told first. -/
def takeJournal (s : Service) : List Trace × Service :=
  (s.dispatcher.journal.reverse, { s with dispatcher := { s.dispatcher with journal := [] } })

end Service
end EventDispatch
