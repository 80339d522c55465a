import EventDispatch.Dispatch.Trace
import EventDispatch.Event.Basic
import EventDispatch.Event.Payload
import EventDispatch.Json.Printer

/-!
# Handlers

**Input.** An event that is being run, and how often its handler was called for it before.

**Rule.** What a handler does is a play: a list of deeds, in order, and an ending. A handler never
sees the answer of the store, so its play is known when it is called.

**Contents**

* `Outcome`, `HandlerError`, `Ending`: how a call ends
* `Deed`, `Play`, `Handler`
* `Handler.ofPayload`: decode the payload, write it to the trail, end
* `Script`, `Handler.ofScripts`: plays written out in advance
-/

namespace EventDispatch

/-- The result of a call that went through. -/
inductive Outcome where
  /-- The event completes. -/
  | done
  /-- The event is to be run again. -/
  | retry
  /-- The event fails for the reason given. -/
  | fatal (reason : String)
deriving DecidableEq, Inhabited

/-- Why a handler could not work on an event at all. -/
inductive HandlerError where
  /-- The payload is not of the shape it needs. -/
  | malformedPayload (cause : Json.DecodeError)
  /-- The tag is not one it handles. -/
  | unsupported (tag : Tag)
deriving DecidableEq

/-- The wording of such a failure. -/
def HandlerError.message : HandlerError → String
  | malformedPayload cause => "malformed payload: " ++ cause.message
  | unsupported tag => "unsupported event type: " ++ tag

/-- How a call ends by itself. -/
inductive Ending where
  /-- It returns. -/
  | returned (result : Except HandlerError Outcome)
  /-- It breaks down with a message. -/
  | panicked (message : String)

/-- One thing a handler does. -/
inductive Deed where
  /-- Write a row to the trail of the event. -/
  | log (level : LogLevel) (message : String)
  /-- Tell something. -/
  | narrate (trace : Trace)
  /-- Sleep for some milliseconds. -/
  | sleep (milliseconds : Nat)
  /-- Wait until a gate lets one through. -/
  | pass (gate : String)
deriving DecidableEq

/-- What a handler does in one call. -/
structure Play where
  /-- Its deeds, in order. -/
  deeds : List Deed
  /-- How it ends. -/
  ending : Ending

/-- A play that returns at once. -/
def Play.immediate (result : Except HandlerError Outcome) : Play := ⟨[], .returned result⟩

/-- What is called for an event. -/
structure Handler where
  /-- The play of a call, by the number of calls for the event before it. -/
  play : (earlier : Nat) → Event → Play

/-- Decodes the payload of an event. -/
def Event.decodePayload (e : Event) (shape : PayloadType) : Except HandlerError Json :=
  match shape.normalize e.payload with
  | .ok v => .ok v
  | .error cause => .error (.malformedPayload cause)

/-- A handler that writes the decoded payload to the trail. -/
def Handler.ofPayload (shape : PayloadType) (outcome : Outcome) : Handler where
  play _ e :=
    match e.decodePayload shape with
    | .ok v => ⟨[.log .info v.compact], .returned (.ok outcome)⟩
    | .error cause => .immediate (.error cause)

/-- A step of a play written out in advance. -/
inductive ScriptStep where
  /-- Do something. -/
  | act (deed : Deed)
  /-- Write a remark with the tag, owner, status and retries of the event. -/
  | show
  /-- Break down. -/
  | panic (message : String)

/-- The end of a play written out in advance. -/
inductive ScriptEnd where
  /-- A fixed outcome. -/
  | outcome (o : Outcome)
  /-- The tag of the event is not handled. -/
  | unsupported
  /-- The payload decides: done if it has the shape. -/
  | decode (shape : PayloadType)

/-- A play written out in advance. -/
structure Script where
  /-- Its steps. -/
  steps : List ScriptStep
  /-- Its end, if no step breaks down. -/
  finish : ScriptEnd

namespace Script

/-- The end of a script for an event. -/
def ending (e : Event) : ScriptEnd → Ending
  | .outcome o => .returned (.ok o)
  | .unsupported => .returned (.error (.unsupported e.tag))
  | .decode shape => .returned ((e.decodePayload shape).map fun _ => .done)

/-- The remark about an event. -/
def remark (e : Event) : String :=
  e.tag ++ " " ++ e.owner ++ " " ++ e.status.name ++ " " ++ toString e.retryCount.toInt

/-- The play of the steps for an event: what stands after a breakdown is never reached. -/
def playSteps (e : Event) (finish : ScriptEnd) : List ScriptStep → Play
  | [] => ⟨[], ending e finish⟩
  | .act deed :: rest => ⟨deed :: (playSteps e finish rest).deeds, (playSteps e finish rest).ending⟩
  | .show :: rest =>
    ⟨.log .info (remark e) :: (playSteps e finish rest).deeds, (playSteps e finish rest).ending⟩
  | .panic message :: _ => ⟨[], .panicked message⟩

/-- The play of a script for an event. -/
def play (s : Script) (e : Event) : Play := playSteps e s.finish s.steps

end Script

/-- A handler with a script for each call of an event; the last one repeats, and without any the
event completes. -/
def Handler.ofScripts (scripts : List Script) : Handler where
  play earlier e :=
    match scripts[earlier]?, scripts.getLast? with
    | some s, _ => s.play e
    | none, some s => s.play e
    | none, none => .immediate (.ok .done)

end EventDispatch
