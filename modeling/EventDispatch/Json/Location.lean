import EventDispatch.Text.Digits
import EventDispatch.Text.Split

/-!
# Locations at the end of a message

**Input.** The message of a type that refuses a text, which may repeat that text.

**Rule.** Words at the very end of a message that name a line and a column are taken for the place
of the failure. A place is written in plain digits, and one on line zero is none: it is left out.
Numbers that do not fit a 64-bit word name no place, and the message stands as it is.

**Contents**

* `Location`, `Location.ofWords?`, `Location.text`
* `located`: a message with its place put in order
-/

namespace EventDispatch
namespace Json

/-- A place in a document. -/
structure Location where
  /-- The line; the first is one, and zero stands for no place. -/
  line : Nat
  /-- The column. -/
  column : Nat
deriving DecidableEq, Repr

namespace Location

/-- What stands before the line. -/
def lineWord : List Char := " at line ".toList

/-- What stands between the line and the column. -/
def columnWord : List Char := " column ".toList

/-- A number of a line or a column. -/
def number? (cs : List Char) : Option Nat := (Text.natural? cs).filter (· < Nat.pow 2 64)

/-- The place that the words after `lineWord` name: two numbers around `columnWord`, and nothing
else. -/
def ofWords? (cs : List Char) : Option Location :=
  let rest := cs.dropWhile Char.isDigit
  if columnWord.isPrefixOf rest then do
    let line ← number? (cs.takeWhile Char.isDigit)
    let column ← number? (rest.drop columnWord.length)
    pure ⟨line, column⟩
  else none

/-- The words of a place. -/
def text (l : Location) : String :=
  " at line " ++ toString l.line ++ " column " ++ toString l.column

end Location

/-- A message with the place at its end put in order. -/
def located (message : String) : String :=
  match Text.splitLastWord? Location.lineWord message.toList with
  | none => message
  | some (said, place) =>
    match Location.ofWords? place with
    | none => message
    | some l => if l.line = 0 then String.ofList said else String.ofList said ++ l.text

/-- A message that names no line is left as it is. -/
theorem located_of_splitLastWord?_eq_none {message : String}
    (h : Text.splitLastWord? Location.lineWord message.toList = none) :
    located message = message := by
  simp [located, h]

example : located "no tag at line 007 column 05" = "no tag at line 7 column 5" := by
  decide +kernel

example : located "no tag at line 0 column 5" = "no tag" := by decide +kernel

example : located "no tag at line +1 column 2" = "no tag at line +1 column 2" := by
  decide +kernel

end Json
end EventDispatch
