import EventDispatch.Api.Messages
import EventDispatch.Json.Reader

/-!
# Bodies of requests

**Input.** The text of a request body.

**Algorithm.** The body is read in one pass. The first thing wrong with it decides how it is refused:
text that is no JSON is `malformed`, JSON that is no request is `mismatched`.

**Rules.** Fields are taken in the order in which they are written. One that is written twice is
refused at its second key, one that is not declared is skipped whatever it holds. The fields may also
be written as an array. Containers nest as deeply as in any document.

**Contents**

* `BodyError`
* `RegisterRequest.readField`, `RegisterRequest.readFields`, `RegisterRequest.readItems`
* `RegisterRequest.ofBody`
-/

namespace EventDispatch

open Json

/-- Why a body is refused. -/
inductive BodyError where
  /-- It is no JSON text. -/
  | malformed
  /-- It is one, but not of the shape asked for. -/
  | mismatched
deriving DecidableEq

namespace RegisterRequest

/-- Reads the value of a field that holds no container. -/
def readScalar (check : Decoder Unit) : List Token → Except BodyError (Json × List Token)
  | [] => .error .malformed
  | token :: rest =>
    match token with
    | .openBracket => .error .mismatched
    | .openBrace => .error .mismatched
    | token =>
      match Strictness.strict.scalar? token with
      | none => .error .malformed
      | some v =>
        match check v with
        | .ok () => .ok (v, rest)
        | .error _ => .error .mismatched

/-- Reads the value of a declared field; the payload may be any value. -/
def readField (field : Field) (ts : List Token) : Except BodyError (Json × List Token) :=
  if field.name = "payload" then
    match readValue (depthLimit - 1) ts with
    | some (v, rest) => .ok (v, rest)
    | none => .error .malformed
  else readScalar field.check ts

/-- Reading a field uses up at least one token. -/
theorem length_readField {field : Field} {ts rest : List Token} {v : Json}
    (h : readField field ts = .ok (v, rest)) : rest.length < ts.length := by
  unfold readField at h
  split at h
  · split at h
    · next hr =>
      cases h
      exact length_readValue hr
    · cases h
  · unfold readScalar at h
    repeat' split at h
    all_goals first
      | cases h
        simp
      | cases h

/-- The fields of an object that was read to its end. -/
def complete (r : Record) (rest : List Token) : Except BodyError (Record × List Token) :=
  if (Record.missing? declared r).isSome then .error .mismatched else .ok (r, rest)

/-- Reads the fields of an object from a key on; `r` holds those read so far. -/
def readFields (r : Record) (ts : List Token) : Except BodyError (Record × List Token) :=
  match ts with
  | .text (some key) :: after =>
    match declared.find? (·.name = key) with
    | some field =>
      if (Json.lookup key r).isSome then .error .mismatched
      else
        match after with
        | .colon :: value =>
          match h : readField field value with
          | .error e => .error e
          | .ok (v, .comma :: rest) =>
            have := length_readField h
            readFields ((key, v) :: r) rest
          | .ok (v, .closeBrace :: rest) => complete ((key, v) :: r) rest
          | .ok _ => .error .malformed
        | _ => .error .malformed
    | none =>
      match after with
      | .colon :: value =>
        match h : skipValue value with
        | some (.comma :: rest) =>
          have := length_skipValue h
          readFields r rest
        | some (.closeBrace :: rest) => complete r rest
        | _ => .error .malformed
      | _ => .error .malformed
  | _ => .error .malformed
termination_by ts.length
decreasing_by
  · simp only [List.length_cons] at this ⊢
    omega
  · simp only [List.length_cons] at this ⊢
    omega

/-- The fields of an array that ended before the given fields. -/
def completeItems (left : List Field) (r : Record) (rest : List Token) :
    Except BodyError (Record × List Token) :=
  if left.all Field.hasDefault then .ok (r, rest) else .error .mismatched

/-- Reads the items of an array as the given fields in turn, from an item on. -/
def readItems (r : Record) : List Field → List Token → Except BodyError (Record × List Token)
  | [], _ => .error .malformed
  | field :: left, ts =>
    match readField field ts with
    | .error e => .error e
    | .ok (_, .comma :: .closeBracket :: _) => .error .malformed
    | .ok (v, .comma :: rest) => readItems ((field.name, v) :: r) left rest
    | .ok (v, .closeBracket :: rest) => completeItems left ((field.name, v) :: r) rest
    | .ok _ => .error .malformed

/-- Reads an object or an array of fields. -/
def readRecord : List Token → Except BodyError (Record × List Token)
  | .openBrace :: .closeBrace :: rest => complete [] rest
  | .openBrace :: ts => readFields [] ts
  | .openBracket :: .closeBracket :: rest => completeItems declared [] rest
  | .openBracket :: ts => readItems [] declared ts
  | [] => .error .malformed
  | token :: _ =>
    match Strictness.strict.scalar? token with
    | some _ => .error .mismatched
    | none => .error .malformed

/-- The request that a body holds. -/
def ofBody (body : String) : Except BodyError RegisterRequest :=
  match readRecord (tokens body) with
  | .error e => .error e
  | .ok (r, []) =>
    match ofRecord r with
    | .ok request => .ok request
    | .error _ => .error .mismatched
  | .ok _ => .error .malformed

end RegisterRequest
end EventDispatch
