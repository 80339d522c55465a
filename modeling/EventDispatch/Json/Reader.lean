import EventDispatch.Json.Token

/-!
# Reading JSON text

**Input.** The tokens of a text.

**Algorithm.** One pass over the tokens with a stack of open arrays and objects. A closed value is
handed to the container on top of the stack; with an empty stack it is the result, and the tokens
after it are left over.

**Rules.** Nesting is limited by the caller. A strict reader takes the content of every text and
number; a lenient one, which skips a value nobody asked for, lets texts and numbers without a value
pass.

**Contents**

* `Frame`, `Expect`: what is open, and what may come next
* `readValue`, `skipValue`: one value off the front
* `parse`: a whole document
-/

namespace EventDispatch
namespace Json

/-- A container that is not closed yet. -/
inductive Frame where
  /-- An array, with its items so far, last first. -/
  | items (done : List Json)
  /-- An object, with its fields so far and the key whose value comes next. -/
  | fields (done : List (String × Json)) (key : String)

/-- What the next token may be. -/
inductive Expect where
  /-- A value. -/
  | value
  /-- A value, or the end of an array without items. -/
  | valueOrClose
  /-- A key of the object whose fields so far are given. -/
  | key (done : List (String × Json))
  /-- A key, or the end of an object without fields. -/
  | keyOrClose
  /-- The mark after the key. -/
  | colon (done : List (String × Json)) (key : String)
  /-- The end of the container on top, or a comma. -/
  | more

/-- How a reader treats texts and numbers that have no value. -/
inductive Strictness where
  /-- They are refused. -/
  | strict
  /-- They pass, since the value is dropped anyway. -/
  | lenient
deriving DecidableEq

/-- The content of a text token. -/
def Strictness.text? : Strictness → Option String → Option String
  | strict, content => content
  | lenient, content => some (content.getD "")

/-- The value of a number token. -/
def Strictness.number? : Strictness → NumberText → Option Json
  | strict, n => n.value?
  | lenient, _ => some null

/-- The value that a token is by itself. -/
def Strictness.scalar? (mode : Strictness) : Token → Option Json
  | .nothing => some null
  | .truth b => some (bool b)
  | .number n => mode.number? n
  | .text content => (mode.text? content).map str
  | _ => none

/-- Reads one value; `limit` containers may be open at a time, and any number if it is absent. -/
def read (mode : Strictness) (limit : Option Nat) :
    List Token → List Frame → Expect → Option (Json × List Token)
  | [], _, _ => none
  | token :: rest, stack, expect =>
    let deliver := fun (v : Json) (stack : List Frame) =>
      match stack with
      | [] => some (v, rest)
      | .items done :: below => read mode limit rest (.items (v :: done) :: below) .more
      | .fields done key :: below =>
        read mode limit rest (.fields (insertField key v done) "" :: below) .more
    let deeper := fun (frame : Frame) (next : Expect) =>
      if limit.all (stack.length < ·) then read mode limit rest (frame :: stack) next else none
    let beginValue := fun (_ : Unit) =>
      match token with
      | .openBracket => deeper (.items []) .valueOrClose
      | .openBrace => deeper (.fields [] "") .keyOrClose
      | token => (mode.scalar? token).bind (deliver · stack)
    let readKey := fun (done : List (String × Json)) =>
      match token with
      | .text content =>
        (mode.text? content).bind fun key => read mode limit rest stack (.colon done key)
      | _ => none
    match expect with
    | .value => beginValue ()
    | .valueOrClose =>
      match token, stack with
      | .closeBracket, .items done :: below => deliver (arr done.reverse) below
      | _, _ => beginValue ()
    | .key done => readKey done
    | .keyOrClose =>
      match token, stack with
      | .closeBrace, .fields done _ :: below => deliver (obj done) below
      | _, _ => readKey []
    | .colon done key =>
      match token, stack with
      | .colon, .fields _ _ :: below => read mode limit rest (.fields done key :: below) .value
      | _, _ => none
    | .more =>
      match token, stack with
      | .comma, .items done :: below => read mode limit rest (.items done :: below) .value
      | .closeBracket, .items done :: below => deliver (arr done.reverse) below
      | .comma, .fields done key :: below =>
        read mode limit rest (.fields done key :: below) (.key done)
      | .closeBrace, .fields done _ :: below => deliver (obj done) below
      | _, _ => none

/-- Reading a value uses up at least one token. -/
theorem length_read {mode : Strictness} {limit : Option Nat} {ts : List Token}
    {stack : List Frame} {expect : Expect} {v : Json} {rest : List Token}
    (h : read mode limit ts stack expect = some (v, rest)) : rest.length < ts.length := by
  induction ts generalizing stack expect with
  | nil => simp [read] at h
  | cons token more ih =>
    have step : ∀ {st ex}, read mode limit more st ex = some (v, rest) →
        rest.length < (token :: more).length := fun h => by
      have := ih h
      simp only [List.length_cons]
      omega
    have last : ∀ {w : Json}, some (w, more) = some (v, rest) →
        rest.length < (token :: more).length := fun h => by
      cases h
      simp
    unfold read at h
    dsimp only at h
    repeat' split at h
    all_goals first
      | exact step h
      | exact last h
      | cases h
      | skip
    all_goals simp only [Option.bind_eq_some_iff] at h
    all_goals
      obtain ⟨w, _, h⟩ := h
      first
      | exact step h
      | exact last h

/-- Reads one value with its content, at most `limit` containers deep. -/
def readValue (limit : Nat) (ts : List Token) : Option (Json × List Token) :=
  read .strict (some limit) ts [] .value

/-- Skips one well-formed value of any depth. -/
def skipValue (ts : List Token) : Option (List Token) :=
  (read .lenient none ts [] .value).map Prod.snd

/-- Reading a value uses up at least one token. -/
theorem length_readValue {limit : Nat} {ts rest : List Token} {v : Json}
    (h : readValue limit ts = some (v, rest)) : rest.length < ts.length := length_read h

/-- Skipping a value uses up at least one token. -/
theorem length_skipValue {ts rest : List Token} (h : skipValue ts = some rest) :
    rest.length < ts.length := by
  obtain ⟨⟨v, more⟩, hread, rfl⟩ := Option.map_eq_some_iff.1 h
  exact length_read hread

/-- How many containers of a document may be open at a time. -/
def depthLimit : Nat := 127

/-- The value of a whole text, none if it is not a JSON document. -/
def parse (s : String) : Option Json :=
  match readValue depthLimit (tokens s) with
  | some (v, []) => some v
  | _ => none

end Json
end EventDispatch
