import EventDispatch.Json.Location
import EventDispatch.Json.Value
import EventDispatch.Text.Quoted

/-!
# Typed decoding

**Input.** A JSON value and the type it should have.

**Rules.** The fields of an object are visited in the order of its keys, and the first that does not
decode ends the decoding; keys that the type does not declare are ignored. After them a missing
field is reported, the first in the order of declaration. A record may also be written as the array
of its fields. Every failure is a value of `DecodeError`, and `DecodeError.message` words it; a place
at the end of the words of a refusal is put in order.

**Contents**

* `Found`, `DecodeError`, `DecodeError.message`
* `Decoder`, and those of texts, truth values, integers, lists, options and names
* `Field`, `Record.read`, `Record.required`, `Record.optional`, `Record.orElse`
-/

namespace EventDispatch
namespace Json

/-- What stood where something else was expected. -/
inductive Found where
  /-- The absent value. -/
  | nothing
  /-- A truth value. -/
  | truth (b : Bool)
  /-- An integer. -/
  | integer (n : Int)
  /-- A number that is no integer. -/
  | decimal (x : Decimal)
  /-- A text. -/
  | text (s : String)
  /-- An array. -/
  | sequence
  /-- An object. -/
  | map
deriving DecidableEq

/-- The wording of what was found. -/
def Found.describe : Found → String
  | nothing => "null"
  | truth b => "boolean `" ++ (if b then "true" else "false") ++ "`"
  | integer n => "integer `" ++ toString n ++ "`"
  | decimal x => "floating point `" ++ x.text ++ "`"
  | text s => "string " ++ Text.quoted s
  | sequence => "sequence"
  | map => "map"

/-- What kind of value it is. -/
def found : Json → Found
  | null => .nothing
  | bool b => .truth b
  | int n => .integer n
  | float x => .decimal x
  | str s => .text s
  | arr _ => .sequence
  | obj _ => .map

/-- Why a value is not of the type asked for. -/
inductive DecodeError where
  /-- A value of another kind. -/
  | wrongType (found : Found) (expected : String)
  /-- A value of the right kind that the type does not have. -/
  | wrongValue (found : Found) (expected : String)
  /-- An array of another length. -/
  | wrongLength (length : Nat) (expected : String)
  /-- A field without a default that is not there. -/
  | missingField (name : String)
  /-- A name that is none of the choices. -/
  | unknownVariant (name : String) (choices : List String)
  /-- A text that the type's own reader refuses, in that reader's words. -/
  | refused (message : String)
deriving DecidableEq

/-- The choices of a name, in words. -/
def choicesText : List String → String
  | [] => "there are no variants"
  | [a] => "expected `" ++ a ++ "`"
  | [a, b] => "expected `" ++ a ++ "` or `" ++ b ++ "`"
  | choices => "expected one of " ++ String.intercalate ", " (choices.map fun c => "`" ++ c ++ "`")

/-- The wording of a decoding failure. -/
def DecodeError.message : DecodeError → String
  | wrongType f e => "invalid type: " ++ f.describe ++ ", expected " ++ e
  | wrongValue f e => "invalid value: " ++ f.describe ++ ", expected " ++ e
  | wrongLength n e => "invalid length " ++ toString n ++ ", expected " ++ e
  | missingField name => "missing field `" ++ name ++ "`"
  | unknownVariant name choices => "unknown variant `" ++ name ++ "`, " ++ choicesText choices
  | refused message => located message

/-- A reader of values of a type. -/
abbrev Decoder (α : Type) := Json → Except DecodeError α

/-- Any value. -/
def decodeValue : Decoder Json := .ok

/-- A text. -/
def decodeText : Decoder String
  | str s => .ok s
  | v => .error (.wrongType v.found "a string")

/-- A truth value. -/
def decodeBool : Decoder Bool
  | bool b => .ok b
  | v => .error (.wrongType v.found "a boolean")

/-- An integer between two bounds, both included; `name` names the type with these bounds. -/
def decodeInt (name : String) (least greatest : Int) : Decoder Int
  | int n =>
    if least ≤ n ∧ n ≤ greatest then .ok n else .error (.wrongValue (.integer n) name)
  | v => .error (.wrongType v.found name)

/-- A signed integer of 64 bits. -/
def decodeInt64 : Decoder Int := decodeInt "i64" (-9223372036854775808) 9223372036854775807

/-- A signed integer of 32 bits. -/
def decodeInt32 : Decoder Int := decodeInt "i32" (-2147483648) 2147483647

/-- A natural number of 32 bits. -/
def decodeWord32 : Decoder Nat := fun v => (decodeInt "u32" 0 4294967295 v).map Int.toNat

/-- A natural number of 64 bits. -/
def decodeWord64 : Decoder Nat := fun v => (decodeInt "u64" 0 18446744073709551615 v).map Int.toNat

/-- A list; the first item that does not decode ends it. -/
def decodeList {α : Type} (item : Decoder α) : Decoder (List α)
  | arr items => items.mapM item
  | v => .error (.wrongType v.found "a sequence")

/-- A value that may be absent. -/
def decodeOption {α : Type} (inner : Decoder α) : Decoder (Option α)
  | null => .ok none
  | v => (inner v).map some

/-- The constant with a name, out of a list of names with their constants. -/
def decodeName {α : Type} (choices : List (String × α)) (name : String) : Except DecodeError α :=
  match choices.lookup name with
  | some a => .ok a
  | none => .error (.unknownVariant name (choices.map Prod.fst))

/-- The absent value. -/
def decodeNothing : Decoder Unit
  | null => .ok ()
  | v => .error (.wrongType v.found "unit")

/-- The absent value or an object without fields. -/
def decodeEmpty : Decoder Unit
  | obj [] => .ok ()
  | v => decodeNothing v

/-- One of several constants: its name, or an object with the name over a value that says no
more. -/
def decodeChoiceOver {α : Type} (inner : Decoder Unit) (choices : List (String × α)) : Decoder α
  | str s => decodeName choices s
  | obj [(key, value)] => do
    let a ← decodeName choices key
    inner value
    pure a
  | obj _ => .error (.wrongValue .map "map with a single key")
  | v => .error (.wrongType v.found "string or map")

/-- One of several constants: its name, or an object with the name over `null`. -/
def decodeChoice {α : Type} (choices : List (String × α)) : Decoder α :=
  decodeChoiceOver decodeNothing choices

/-- A declared field of a record. -/
structure Field where
  /-- Its key. -/
  name : String
  /-- Whether the record has a value for it when it is not written. -/
  hasDefault : Bool
  /-- The failure of a value that the field cannot hold. -/
  check : Decoder Unit

/-- A field that must be written. -/
def Field.required {α : Type} (name : String) (decode : Decoder α) : Field :=
  ⟨name, false, fun v => (decode v).map fun _ => ()⟩

/-- A field that may be left out. -/
def Field.optional {α : Type} (name : String) (decode : Decoder α) : Field :=
  ⟨name, true, fun v => (decode v).map fun _ => ()⟩

/-- The values written for the declared fields of a record. -/
abbrev Record := List (String × Json)

namespace Record

/-- Checks the fields of an object in the order of its keys and keeps the declared ones. -/
def ofFields (declared : List Field) : List (String × Json) → Except DecodeError Record
  | [] => .ok []
  | (key, value) :: rest =>
    match declared.find? (·.name = key) with
    | none => ofFields declared rest
    | some field => do
      field.check value
      let others ← ofFields declared rest
      pure ((key, value) :: others)

/-- The first declared field that has no default and is not written. -/
def missing? (declared : List Field) (r : Record) : Option String :=
  (declared.find? fun f => !f.hasDefault && (Json.lookup f.name r).isNone).map Field.name

/-- Checks the items of an array as the declared fields in turn; `position` counts them. -/
def ofItems (expected : String) : (position : Nat) → List Field → List Json →
    Except DecodeError Record
  | _, [], _ => .ok []
  | position, field :: declared, value :: rest => do
    field.check value
    let others ← ofItems expected (position + 1) declared rest
    pure ((field.name, value) :: others)
  | position, field :: declared, [] =>
    if field.hasDefault then ofItems expected (position + 1) declared []
    else .error (.wrongLength position expected)

/-- How many elements a record has, in words. -/
def elementsText (name : String) (count : Nat) : String :=
  "struct " ++ name ++ " with " ++ toString count ++ (if count = 1 then " element" else " elements")

/-- Reads the declared fields of a record from an object or an array. -/
def read (name : String) (declared : List Field) : Decoder Record
  | obj fields => do
    let r ← ofFields declared fields
    match missing? declared r with
    | some field => throw (.missingField field)
    | none => pure r
  | arr items => do
    let r ← ofItems (elementsText name declared.length) 0 declared items
    if declared.length < items.length then
      throw (.wrongLength items.length "fewer elements in array")
    else pure r
  | v => .error (.wrongType v.found ("struct " ++ name))

/-- The value of a field that must be written. -/
def required {α : Type} (r : Record) (name : String) (decode : Decoder α) :
    Except DecodeError α :=
  match Json.lookup name r with
  | some v => decode v
  | none => .error (.missingField name)

/-- The value of a field, or its default if it is not written. -/
def orElse {α : Type} (r : Record) (name : String) (decode : Decoder α) (default : α) :
    Except DecodeError α :=
  match Json.lookup name r with
  | some v => decode v
  | none => .ok default

/-- The value of a field that may be absent or `null`. -/
def optional {α : Type} (r : Record) (name : String) (decode : Decoder α) :
    Except DecodeError (Option α) :=
  r.orElse name (decodeOption decode) none

end Record

end Json
end EventDispatch
