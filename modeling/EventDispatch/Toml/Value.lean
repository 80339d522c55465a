/-!
# Configuration values and tables

**Input.** The statements of a configuration document, in order.

**Rules.** A header opens a table; the tables on the way to it are implied and may be opened later. A
header in double brackets adds a row to an array of tables, and a path through such an array leads to
its last row. A dotted key adds to tables that are implied or made by dotted keys, and the table that
it ends in must be made by dotted keys. No key is given twice, and no table is opened twice.

**Contents**

* `Origin`, `Value`: a value does not keep what no setting can hold
* `Statement`
* `descend`, `assign`, `openTable`, `openRow`
* `Document.ofStatements?`
-/

namespace EventDispatch
namespace Toml

/-- How a table came to be, which decides who may add to it. -/
inductive Origin where
  /-- It was opened by a header. -/
  | header
  /-- It stands on the way to a table that was opened. -/
  | implied
  /-- It was made by a dotted key. -/
  | dotted
  /-- It was written in braces. -/
  | inline
deriving DecidableEq, Repr

/-- A value of a configuration document. -/
inductive Value where
  /-- A text. -/
  | text (s : String)
  /-- An integer. -/
  | integer (n : Int)
  /-- A number that is no integer. -/
  | float
  /-- A truth value. -/
  | truth (b : Bool)
  /-- A point in time. -/
  | moment
  /-- A list of values. -/
  | array (items : List Value)
  /-- Values under distinct keys. -/
  | table (origin : Origin) (fields : List (String × Value))
  /-- Tables that were opened one after the other, last opened first. -/
  | tables (rows : List (List (String × Value)))
deriving Inhabited, Repr

/-- The fields of a table. -/
abbrev Fields := List (String × Value)

/-- Puts a value under a key, over one that is there. -/
def setField (key : String) (v : Value) : Fields → Fields
  | [] => [(key, v)]
  | (k, w) :: rest => if k = key then (key, v) :: rest else (k, w) :: setField key v rest

/-- A statement of a document. -/
inductive Statement where
  /-- A header. -/
  | header (path : List String)
  /-- A header in double brackets. -/
  | row (path : List String)
  /-- A value under a key. -/
  | assign (path : List String) (v : Value)

/-- What is done to a table at the end of a path. -/
abbrev Change := Origin → Fields → Option Fields

/-- Changes the table at the end of a path of headers, and makes those that are missing. -/
def descend (change : Change) : List String → Change
  | [], origin, fields => change origin fields
  | key :: path, _, fields =>
    match fields.lookup key with
    | none => do
      pure (setField key (.table .implied (← descend change path .implied [])) fields)
    | some (.table .inline _) => none
    | some (.table origin inner) => do
      pure (setField key (.table origin (← descend change path origin inner)) fields)
    | some (.tables (last :: others)) => do
      pure (setField key (.tables ((← descend change path .header last) :: others)) fields)
    | some _ => none

/-- Puts a value under a dotted key; `first` tells that no part of the key was used yet. -/
def assignFrom (first : Bool) (v : Value) : List String → Change
  | [], _, _ => none
  | [key], origin, fields =>
    if (first || origin = .dotted) && (fields.lookup key).isNone then
      some (setField key v fields)
    else none
  | key :: path, _, fields =>
    match fields.lookup key with
    | none => do
      pure (setField key (.table .dotted (← assignFrom false v path .dotted [])) fields)
    | some (.table .implied inner) => do
      pure (setField key (.table .implied (← assignFrom false v path .implied inner)) fields)
    | some (.table .dotted inner) => do
      pure (setField key (.table .dotted (← assignFrom false v path .dotted inner)) fields)
    | some (.tables (last :: others)) => do
      pure (setField key (.tables ((← assignFrom false v path .header last) :: others)) fields)
    | some _ => none

/-- Puts a value under a key, which may be dotted. -/
def assign (v : Value) (path : List String) : Change := assignFrom true v path

/-- Opens the table of a key: one that is implied, or a new one. -/
def openTable (key : String) : Change := fun _ fields =>
  match fields.lookup key with
  | none => some (setField key (.table .header []) fields)
  | some (.table .implied inner) => some (setField key (.table .header inner) fields)
  | some _ => none

/-- Adds a row to the array of tables of a key. -/
def openRow (key : String) : Change := fun _ fields =>
  match fields.lookup key with
  | none => some (setField key (.tables [[]]) fields)
  | some (.tables rows) => some (setField key (.tables ([] :: rows)) fields)
  | some _ => none

/-- A document while its statements are taken in. -/
structure Document where
  /-- All that was taken in. -/
  root : Fields
  /-- The path of the table that was opened last. -/
  current : List String

namespace Document

/-- Changes the document at the end of a path of headers. -/
def at? (d : Document) (path : List String) (change : Change) : Option Fields :=
  descend change path .header d.root

/-- Takes in a statement. -/
def take? (d : Document) : Statement → Option Document
  | .header path => do
    let key ← path.getLast?
    pure ⟨← d.at? path.dropLast (openTable key), path⟩
  | .row path => do
    let key ← path.getLast?
    pure ⟨← d.at? path.dropLast (openRow key), path⟩
  | .assign path v => do
    pure ⟨← d.at? d.current (assign v path), d.current⟩

/-- The fields that statements amount to, if they agree with each other. -/
def ofStatements? (statements : List Statement) : Option Fields :=
  (statements.foldlM take? ⟨[], []⟩).map Document.root

end Document
end Toml
end EventDispatch
