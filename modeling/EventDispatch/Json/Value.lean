import EventDispatch.Number.Decimal

/-!
# JSON values

**Rule.** A value is `null`, a truth value, a number, a text, an array or an object. An integer is
kept exactly when it fits a signed or an unsigned 64-bit word, every other number as a decimal. The
keys of an object are distinct and in ascending order, so equal objects are written the same way.

**Contents**

* `Json`: the values
* `Json.insertField`, `Json.object`: objects from pairs in any order, the last of equal keys winning
* `Json.field?`: look-up of a key
-/

namespace EventDispatch

/-- A JSON value. -/
inductive Json where
  /-- The absent value. -/
  | null
  /-- A truth value. -/
  | bool (b : Bool)
  /-- An integer of a signed or an unsigned 64-bit word. -/
  | int (n : Int)
  /-- Any other number. -/
  | float (x : Decimal)
  /-- A text. -/
  | str (s : String)
  /-- A sequence of values. -/
  | arr (items : List Json)
  /-- Values under distinct keys. -/
  | obj (fields : List (String × Json))
deriving BEq, Inhabited, Repr

namespace Json

/-- Puts a field at the place of its key, over a field that has the key already. -/
def insertField (key : String) (value : Json) : List (String × Json) → List (String × Json)
  | [] => [(key, value)]
  | (k, v) :: rest =>
    if key < k then (key, value) :: (k, v) :: rest
    else if key = k then (key, value) :: rest
    else (k, v) :: insertField key value rest

/-- The object of the given fields. -/
def object (fields : List (String × Json)) : Json :=
  obj (fields.foldl (fun acc (k, v) => insertField k v acc) [])

/-- The value under a key. -/
def lookup (key : String) : List (String × Json) → Option Json
  | [] => none
  | (k, v) :: rest => if k = key then some v else lookup key rest

/-- The value under a key of an object. -/
def field? (key : String) : Json → Option Json
  | obj fields => lookup key fields
  | _ => none

/-- A field just put in is found. -/
@[simp] theorem lookup_insertField_self (key : String) (value : Json)
    (fields : List (String × Json)) :
    lookup key (insertField key value fields) = some value := by
  induction fields with
  | nil => simp [insertField, lookup]
  | cons field rest ih =>
    obtain ⟨k, v⟩ := field
    simp only [insertField]
    split
    · simp [lookup]
    · split
      · simp [lookup]
      · next h => simp [lookup, ih, Ne.symm h]

/-- Putting in a field leaves the others as they are. -/
theorem lookup_insertField_of_ne {key other : String} (h : other ≠ key) (value : Json)
    (fields : List (String × Json)) :
    lookup other (insertField key value fields) = lookup other fields := by
  induction fields with
  | nil => simp [insertField, lookup, Ne.symm h]
  | cons field rest ih =>
    obtain ⟨k, v⟩ := field
    simp only [insertField]
    split
    · simp [lookup, Ne.symm h]
    · split
      · next hk => subst hk; simp [lookup, Ne.symm h]
      · simp [lookup, ih]

end Json
end EventDispatch
