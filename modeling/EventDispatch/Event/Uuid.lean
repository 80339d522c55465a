import EventDispatch.Text.Digits

/-!
# Unique identifiers

**Rule.** An identifier is a 128-bit word. It is written as 32 lower-case hexadecimal digits in five
groups joined by hyphens. It is read with the hyphens or without any, between braces, or after
`urn:uuid:`, and the case of a letter never matters.

**Contents**

* `Uuid`, `Uuid.nil`, `Uuid.ofSerial`
* `Uuid.text`, `Uuid.ofText?`
-/

namespace EventDispatch

/-- A 128-bit identifier. -/
structure Uuid where
  /-- The word, most significant digit first when written. -/
  word : BitVec 128
deriving DecidableEq, Inhabited

namespace Uuid

/-- The identifier of no thing. -/
def nil : Uuid := ⟨0⟩

/-- The identifier of the thing with a serial number: the number in the low digits, under the marks
of a time-ordered identifier. -/
def ofSerial (n : Nat) : Uuid := ⟨(BitVec.ofNat 128 n) ||| 0x00000000000070008000000000000000#128⟩

/-- The hexadecimal digits of a word, `count` of them. -/
def digits : (count : Nat) → Nat → List Char
  | 0, _ => []
  | count + 1, n => digits count (n / 16) ++ [Nat.digitChar (n % 16)]

/-- The written form. -/
def text (u : Uuid) : String :=
  let ds := digits 32 u.word.toNat
  let part := fun (start count : Nat) => String.ofList ((ds.drop start).take count)
  part 0 8 ++ "-" ++ part 8 4 ++ "-" ++ part 12 4 ++ "-" ++ part 16 4 ++ "-" ++ part 20 12

instance : ToString Uuid := ⟨text⟩

/-- The identifier of 32 digits. -/
def ofDigits? (cs : List Char) : Option Uuid :=
  if cs.length = 32 then
    (cs.mapM Text.hexValue?).map fun digits => ⟨BitVec.ofNat 128 (Text.valueIn 16 digits)⟩
  else none

/-- The identifier of five groups joined by hyphens. -/
def ofGroups? (cs : List Char) : Option Uuid :=
  if cs.length = 36 ∧ [8, 13, 18, 23].all (fun i => cs[i]? = some '-') then
    ofDigits? (cs.take 8 ++ (cs.drop 9).take 4 ++ (cs.drop 14).take 4 ++ (cs.drop 19).take 4
      ++ cs.drop 24)
  else none

/-- Reads an identifier in any of its forms. -/
def ofText? (s : String) : Option Uuid :=
  let cs := s.toList
  if cs.length = 32 then ofDigits? cs
  else if cs.length = 36 then ofGroups? cs
  else if cs.length = 38 ∧ cs.head? = some '\x7b' ∧ cs.getLast? = some '\x7d' then
    ofGroups? ((cs.drop 1).take 36)
  else if cs.length = 45 ∧ (cs.take 9).map Char.toLower = "urn:uuid:".toList then ofGroups? (cs.drop 9)
  else none

end Uuid
end EventDispatch
