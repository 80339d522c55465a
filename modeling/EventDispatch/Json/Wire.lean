import EventDispatch.Json.Decode

/-!
# Types with a JSON form

**Rule.** A type on the wire is written as one JSON value and read from any value that has its
shape. Texts, truth values, integers, lists, options and whole values are written as themselves.

**Contents**

* `Wire`: the writer and the reader of a type
* `encodeList`, `encodeOption`, `encodeMap`: writers of containers
* `Wire.normalize`: reading a value and writing it out in full
-/

namespace EventDispatch

/-- A type with a JSON form. -/
class Wire (α : Type) where
  /-- The JSON form of a value. -/
  encode : α → Json
  /-- The value of a JSON form. -/
  decode : Json.Decoder α

namespace Json

/-- The array of the forms of a list. -/
def encodeList {α : Type} (item : α → Json) (xs : List α) : Json := arr (xs.map item)

/-- The form of a value that may be absent. -/
def encodeOption {α : Type} (inner : α → Json) : Option α → Json
  | none => null
  | some a => inner a

/-- The array of texts. -/
def encodeTexts : List String → Json := encodeList str

/-- Why a value has no JSON form. -/
inductive EncodeError where
  /-- A key of a map is no text and has none. -/
  | keyNotText
deriving DecidableEq, Repr

/-- The wording of such a failure. -/
def EncodeError.message : EncodeError → String
  | keyNotText => "key must be a string"

/-- The text under which a value stands as a key. -/
def keyText : Json → Except EncodeError String
  | str s => .ok s
  | bool b => .ok (if b then "true" else "false")
  | int n => .ok (toString n)
  | float x => .ok x.text
  | null | arr _ | obj _ => .error .keyNotText

/-- The form of a map from values to values; of equal keys the last wins. -/
def encodeMap (entries : List (Json × Json)) : Except EncodeError Json :=
  (entries.mapM fun entry => (keyText entry.1).map fun text => (text, entry.2)).map object

/-- A list is read back from the forms of its items. -/
theorem decodeList_encodeList {α : Type} {item : α → Json} {read : Decoder α}
    (h : ∀ a, read (item a) = .ok a) (xs : List α) :
    decodeList read (encodeList item xs) = .ok xs := by
  simp only [decodeList, encodeList]
  induction xs with
  | nil => rfl
  | cons a rest ih =>
    simp only [List.map_cons, List.mapM_cons, h, ih]
    rfl

/-- An optional value is read back, provided no form is `null`. -/
theorem decodeOption_encodeOption {α : Type} {inner : α → Json} {read : Decoder α}
    (h : ∀ a, read (inner a) = .ok a) (hn : ∀ a, inner a ≠ null) (x : Option α) :
    decodeOption read (encodeOption inner x) = .ok x := by
  cases x with
  | none => rfl
  | some a =>
    simp only [encodeOption]
    unfold decodeOption
    split
    · next e => exact absurd e (hn a)
    · rw [h]
      rfl

end Json

/-- The full form of a value that has the shape of a type. -/
def Wire.normalize (α : Type) [Wire α] (v : Json) : Except Json.DecodeError Json :=
  (Wire.decode (α := α) v).map Wire.encode

end EventDispatch
