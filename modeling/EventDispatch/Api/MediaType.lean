import EventDispatch.Text.Split

/-!
# Media types

**Input.** The content type that a request declares.

**Rules.** A content type is a type, a slash, a subtype and parameters. Names are made of token
characters; a parameter value is one too or stands in double quotes, and is not empty there. A subtype
may end in a plus sign and the format it is built on. Case does not matter. A text that is no content
type declares none.

**Contents**

* `MediaType.hasParameters`
* `MediaType.isJson`
-/

namespace EventDispatch
namespace MediaType

/-- The characters of names. -/
def isTokenChar (c : Char) : Bool :=
  c.isAlphanum || "!#$%&'*+-.^_`|~".toList.contains c

/-- The characters that may stand in quotes. -/
def isQuotedChar (c : Char) : Bool := 32 ≤ c.toNat && c.toNat < 127

/-- Where in the parameters the reader is. -/
inductive Place where
  /-- Before a name. -/
  | start
  /-- Inside a name. -/
  | name
  /-- Before a value. -/
  | valueStart
  /-- Inside a value. -/
  | value
  /-- After an opening quote. -/
  | quoteStart
  /-- Inside quotes. -/
  | quote
  /-- After a closing quote. -/
  | quoteEnd
deriving DecidableEq

/-- Whether a text, read from a place on, is a list of parameters. -/
def parametersFrom : Place → List Char → Bool
  | .start, [] | .valueStart, [] | .value, [] | .quoteEnd, [] => true
  | _, [] => false
  | .start, c :: rest =>
    if c = ' ' then parametersFrom .start rest
    else isTokenChar c && parametersFrom .name rest
  | .name, c :: rest =>
    if c = '=' then parametersFrom .valueStart rest
    else isTokenChar c && parametersFrom .name rest
  | .valueStart, c :: rest =>
    if c = '"' then parametersFrom .quoteStart rest
    else isTokenChar c && parametersFrom .value rest
  | .value, c :: rest =>
    if c = ';' then parametersFrom .start rest
    else isTokenChar c && parametersFrom .value rest
  | .quoteStart, c :: rest => isQuotedChar c && parametersFrom .quote rest
  | .quote, c :: rest =>
    if c = '"' then parametersFrom .quoteEnd rest
    else isQuotedChar c && parametersFrom .quote rest
  | .quoteEnd, c :: rest =>
    if c = ';' then parametersFrom .start rest
    else c = ' ' && parametersFrom .quoteEnd rest

/-- Whether what follows a subtype is nothing or a list of parameters. -/
def hasParameters : List Char → Bool
  | [] => true
  | ';' :: rest => parametersFrom .start rest
  | _ => false

/-- Whether a subtype is JSON, or a format built on it. A plus sign at the start is part of a name. -/
def isJsonSubtype (subtype : List Char) : Bool :=
  match subtype with
  | [] => false
  | first :: rest =>
    match Text.splitLast? '+' rest with
    | none => subtype = "json".toList
    | some (before, after) => first :: before = "json".toList || after = "json".toList

/-- Whether a content type is that of a JSON text. -/
def isJson (s : String) : Bool :=
  let cs := s.toList.map Char.toLower
  let (top, rest) := (cs.takeWhile isTokenChar, cs.dropWhile isTokenChar)
  match rest with
  | '/' :: rest =>
    top = "application".toList && isJsonSubtype (rest.takeWhile isTokenChar) &&
      hasParameters (rest.dropWhile isTokenChar)
  | _ => false

end MediaType
end EventDispatch
