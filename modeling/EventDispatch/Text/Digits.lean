/-!
# Digits

**Rule.** A list of digits, most significant first, stands for a number in its base.

**Contents**

* `digitValue`, `hexValue?`: the value of one digit
* `valueIn`: the number of a list of digits
* `hexDigits`: the digits of a number
* `integer?`: a signed decimal number between two bounds
-/

namespace EventDispatch
namespace Text

/-- The value of a decimal digit. -/
def digitValue (c : Char) : Nat := c.toNat - 48

/-- The value of a hexadecimal digit of either case. -/
def hexValue? (c : Char) : Option Nat :=
  if '0' ≤ c ∧ c ≤ '9' then some (c.toNat - 48)
  else if 'a' ≤ c ∧ c ≤ 'f' then some (c.toNat - 87)
  else if 'A' ≤ c ∧ c ≤ 'F' then some (c.toNat - 55)
  else none

/-- The number that a list of digits stands for. -/
def valueIn (base : Nat) (digits : List Nat) : Nat := digits.foldl (fun n d => n * base + d) 0

/-- The lower-case hexadecimal digits of a number, most significant first. -/
def hexDigits (n : Nat) : String := String.ofList (Nat.toDigits 16 n)

/-- The number of a text of decimal digits, if it is one. -/
def natural? (cs : List Char) : Option Nat :=
  if cs ≠ [] ∧ cs.all Char.isDigit then some (valueIn 10 (cs.map digitValue)) else none

/-- The number of a text of decimal digits after an optional sign, if it lies between the bounds. -/
def integer? (least greatest : Int) (cs : List Char) : Option Int :=
  let within := fun (n : Int) => if least ≤ n ∧ n ≤ greatest then some n else none
  match cs with
  | '-' :: rest => (natural? rest).bind fun n => within (-n)
  | '+' :: rest => (natural? rest).bind fun n => within n
  | _ => (natural? cs).bind fun n => within n

end Text
end EventDispatch
