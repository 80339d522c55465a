import EventDispatch.Text.Digits
import EventDispatch.Text.Split

/-!
# Addresses of requests

**Input.** The target of a request: a path and perhaps a query.

**Rules.** A target may also name a scheme and a host before the path, which are not looked at. In path
and query a percent sign with two hexadecimal digits stands for a byte, and any other percent
sign for itself; the bytes are text in UTF-8. A query is a list of names with values, joined by
ampersands; in it a plus sign stands for a space. A part of a query without an equals sign is a name
with an empty value, and an empty part is none.

**Contents**

* `Target.withoutHost`, `Target.ofText`: path and query of a target
* `percentDecode?`: the text of a part of a path
* `queryPairs`: the names and values of a query
-/

namespace EventDispatch

/-- What a request is directed at. -/
structure Target where
  /-- The path as it is written. -/
  path : List Char
  /-- What follows the question mark. -/
  query : List Char

namespace Target

/-- The part of a target that starts with the path, after the scheme and the host if they are there. -/
def withoutHost (cs : List Char) : List Char :=
  match cs with
  | '/' :: _ => cs
  | _ =>
    match Text.splitFirst? ':' cs with
    | some (_, '/' :: '/' :: rest) => rest.dropWhile fun c => c ≠ '/' && c ≠ '?'
    | _ => cs

/-- Cuts a target into path and query; a fragment is not sent. -/
def ofText (s : String) : Target :=
  let sent := withoutHost (s.toList.takeWhile (· ≠ '#'))
  match Text.splitFirst? '?' sent with
  | none => ⟨sent, []⟩
  | some (path, query) => ⟨path, query⟩

/-- The bytes that a text with percent signs stands for. -/
def percentBytes : List Char → List UInt8
  | '%' :: a :: b :: rest =>
    match Text.hexValue? a, Text.hexValue? b with
    | some high, some low => UInt8.ofNat (high * 16 + low) :: percentBytes rest
    | _, _ => 37 :: percentBytes (a :: b :: rest)
  | c :: rest => String.utf8EncodeChar c ++ percentBytes rest
  | [] => []

/-- The text that a text with percent signs stands for, if its bytes are text. -/
def percentDecode? (cs : List Char) : Option String :=
  String.fromUTF8? ⟨(percentBytes cs).toArray⟩

/-- The text of a name or a value in a query, if its bytes are text. -/
def formDecode? (cs : List Char) : Option String :=
  percentDecode? (cs.map fun c => if c = '+' then ' ' else c)

/-- The names and values of a query. -/
def queryPairs (query : List Char) : List (Option String × Option String) :=
  ((Text.splitOn '&' query).filter (· ≠ [])).map fun part =>
    match Text.splitFirst? '=' part with
    | none => (formDecode? part, some "")
    | some (name, value) => (formDecode? name, formDecode? value)

end Target
end EventDispatch
