/-!
# Decimals with the precision of a 64-bit float

**Input.** A decimal number of any length, as a sign, its digits before and after the point, and a
power of ten.

**Rule.** A number with a fraction or an exponent stands for a 64-bit float. The digits that fit a
64-bit word are read as an integer and rounded to a float, the power of ten is rounded to a float,
and the two are multiplied or divided with one more rounding; ties go to the even significand. The
result is kept as the decimal with the fewest digits that rounds to it, of those the nearest, of two
at the same distance the even one. A number too large for every float is refused.

**Contents**

* `Ratio`, `Binary`, `Binary.nearest?`: rounding an exact ratio to a float `m * 2 ^ k`
* `Binary.fewestDigits`: the shortest decimal of a float
* `Decimal`: sign, digits, power of ten; `Decimal.ofDigits?`, `Decimal.exceedsFloats`
* `Decimal.positional`, `Decimal.scientific`, `Decimal.text`: ways to write one
-/

namespace EventDispatch

/-- A positive fraction. -/
structure Ratio where
  /-- The part above the line. -/
  num : Nat
  /-- The part below the line. -/
  den : Nat

/-- The fraction `n * b ^ e`. -/
def Ratio.scaled (n b : Nat) (e : Int) : Ratio :=
  if 0 ≤ e then ⟨n * b.pow e.toNat, 1⟩ else ⟨n, b.pow (-e).toNat⟩

/-- The fraction divided by `b ^ e`. -/
def Ratio.shrink (r : Ratio) (b : Nat) (e : Int) : Ratio :=
  if 0 ≤ e then ⟨r.num, r.den * b.pow e.toNat⟩ else ⟨r.num * b.pow (-e).toNat, r.den⟩

/-- Whether the first fraction is the smaller one. -/
def Ratio.less (r s : Ratio) : Bool := r.num * s.den < s.num * r.den

/-- The integer nearest to a fraction, a tie going to the even one. -/
def Ratio.nearest (r : Ratio) : Nat :=
  let q := r.num / r.den
  let rest := r.num % r.den
  if 2 * rest < r.den then q
  else if r.den < 2 * rest then q + 1
  else if q % 2 = 0 then q else q + 1

/-- A binary exponent that leaves at most 53 bits before the point, and 53 of them unless the
number is below the normal range. -/
def binaryExponent (r : Ratio) : Int :=
  let k : Int := (Nat.log2 r.num : Int) - Nat.log2 r.den - 53
  let s := r.shrink 2 k
  max (-1074) (if s.num < Nat.pow 2 53 * s.den then k else k + 1)

/-- The non-negative float `significand * 2 ^ exponent`. -/
structure Binary where
  /-- At most 53 bits. -/
  significand : Nat
  /-- The power of two they are taken by. -/
  exponent : Int
deriving DecidableEq

namespace Binary

/-- The float as an exact fraction. -/
def ratio (x : Binary) : Ratio := .scaled x.significand 2 x.exponent

/-- The nearest float, none if the fraction is too large for all of them. -/
def nearest? (r : Ratio) : Option Binary :=
  if r.num = 0 then some ⟨0, 0⟩ else
  let k := binaryExponent r
  let m := (r.shrink 2 k).nearest
  let x : Binary := if m = Nat.pow 2 53 then ⟨Nat.pow 2 52, k + 1⟩ else ⟨m, k⟩
  if 971 < x.exponent then none else some x

/-- The nearest float to the product. -/
def mul? (x y : Binary) : Option Binary :=
  nearest? ⟨x.ratio.num * y.ratio.num, x.ratio.den * y.ratio.den⟩

/-- The nearest float to the quotient by a float other than zero. -/
def div? (x y : Binary) : Option Binary :=
  nearest? ⟨x.ratio.num * y.ratio.den, x.ratio.den * y.ratio.num⟩

/-- The nearest float to a power of ten. -/
def powerOfTen? (n : Nat) : Option Binary := nearest? ⟨Nat.pow 10 n, 1⟩

/-- A float taken by a power of ten, rounded once for each factor of at most 308 tens; `steps` such
factors are enough to bring every significand of a 64-bit word to zero. -/
def scale? : (steps : Nat) → Binary → Int → Option Binary
  | 0, _, _ => some ⟨0, 0⟩
  | steps + 1, x, e =>
    if x.significand = 0 then some ⟨0, 0⟩
    else if 308 < e then none
    else if 0 ≤ e then do x.mul? (← powerOfTen? e.toNat)
    else if -308 ≤ e then do x.div? (← powerOfTen? (-e).toNat)
    else do scale? steps (← x.div? (← powerOfTen? 308)) (e + 308)

end Binary

/-- The number of decimal digits of a number. -/
def digitCount (n : Nat) : Nat := (Nat.toDigits 10 n).length

/-- Cuts trailing zeros off a digit string, at most `count` of them. -/
def trimmed : (count digits : Nat) → (exponent : Int) → Nat × Int
  | 0, d, e => (d, e)
  | count + 1, d, e =>
    if d ≠ 0 ∧ d % 10 = 0 then trimmed count (d / 10) (e + 1) else (d, e)

/-- The fewest digits whose number rounds to the float: on the grid of each length the two
neighbours of the float are tried, and of two that fit the nearer one is taken, or the even one if
neither is nearer. -/
def Binary.fewestDigits (x : Binary) : Nat × Int :=
  let m := x.significand
  let k := x.exponent
  let low := if m = Nat.pow 2 52 ∧ -1074 < k then Ratio.scaled (4 * m - 1) 2 (k - 2)
    else Ratio.scaled (2 * m - 1) 2 (k - 1)
  let high := Ratio.scaled (2 * m + 1) 2 (k - 1)
  let fits := fun (d : Nat) (e : Int) =>
    let r := Ratio.scaled d 10 e
    if m % 2 = 0 then !(r.less low) && !(high.less r) else low.less r && r.less high
  let magnitude : Int :=
    let whole := x.ratio.num / x.ratio.den
    if 0 < whole then digitCount whole
    else 1 - (digitCount (x.ratio.den / x.ratio.num) : Int)
  let pick := fun (e : Int) =>
    let s := x.ratio.shrink 10 e
    let q := s.num / s.den
    if fits q e && 0 < q then
      if fits (q + 1) e then some (s.nearest, e) else some (q, e)
    else if fits (q + 1) e then some (q + 1, e)
    else none
  let found := (List.range 20).findSome? fun (n : Nat) => pick (magnitude - (n : Int))
  match found with
  | some (d, e) => trimmed 20 d e
  | none => (m, k)

/-- The number `± digits * 10 ^ exponent`. -/
structure Decimal where
  /-- Whether the number, zero included, carries a minus sign. -/
  negative : Bool
  /-- The decimal digits as one number. -/
  digits : Nat
  /-- The power of ten the digits are taken by. -/
  exponent : Int
deriving DecidableEq, Inhabited, Repr

namespace Decimal

/-- Reads digits before the point into a 64-bit word: from the first that does not fit, each digit
only counts as a power of ten. -/
def wholeDigits : (digits : List Nat) → (word : Nat) → Nat × Int
  | [], word => (word, 0)
  | d :: rest, word =>
    if word * 10 + d < Nat.pow 2 64 then wholeDigits rest (word * 10 + d) else (word, rest.length + 1)

/-- Reads digits after the point into the same word, up to the first that does not fit. -/
def fractionDigits : (digits : List Nat) → (word : Nat) → (exponent : Int) → Nat × Int
  | [], word, e => (word, e)
  | d :: rest, word, e =>
    if word * 10 + d < Nat.pow 2 64 then fractionDigits rest (word * 10 + d) (e - 1) else (word, e)

/-- The decimal of a float. -/
def ofBinary (negative : Bool) (x : Binary) : Decimal :=
  if x.significand = 0 then ⟨negative, 0, 0⟩
  else ⟨negative, x.fewestDigits.1, x.fewestDigits.2⟩

/-- The number kept for a decimal text: none when no float is large enough. -/
def ofDigits? (negative : Bool) (whole fraction : List Nat) (exponent : Int) : Option Decimal :=
  let (word, e) := wholeDigits whole 0
  let (word, e) := fractionDigits fraction word e
  do
    let x ← Binary.nearest? ⟨word, 1⟩
    let y ← Binary.scale? 4 x (e + exponent)
    pure (ofBinary negative y)

/-- Whether the nearest float to `digits * 10 ^ exponent` does not exist, the number being larger
than all of them. -/
def exceedsFloats (digits : Nat) (exponent : Int) : Bool :=
  let size : Int := digitCount digits + exponent
  if digits = 0 ∨ size < -400 then false
  else if 400 < size then true
  else (Binary.nearest? (.scaled digits 10 exponent)).isNone

/-- The sign as it is written. -/
def sign (x : Decimal) : String := if x.negative then "-" else ""

/-- A string of zeros. -/
def zeros (n : Nat) : String := String.ofList (List.replicate n '0')

/-- The number without an exponent, with at least one digit on both sides of the point. -/
def positional (x : Decimal) : String :=
  let ds := toString x.digits
  let point : Int := ds.length + x.exponent
  x.sign ++
    (if 0 ≤ x.exponent then ds ++ zeros x.exponent.toNat ++ ".0"
     else if 0 < point then
       String.ofList (ds.toList.take point.toNat) ++ "." ++ String.ofList (ds.toList.drop point.toNat)
     else "0." ++ zeros (-point).toNat ++ ds)

/-- The number with one digit before the point and an exponent, which carries its sign. -/
def scientific (x : Decimal) : String :=
  let ds := toString x.digits
  let point : Int := ds.length + x.exponent
  x.sign ++ String.ofList (ds.toList.take 1) ++
    (if ds.length = 1 then "" else "." ++ String.ofList (ds.toList.drop 1)) ++
    (if 0 < point then "e+" else "e") ++ toString (point - 1)

/-- The text of a number in a document: positional unless the point lies more than sixteen digits
to the right, or more than five to the left, of the first digit. -/
def text (x : Decimal) : String :=
  let point : Int := digitCount x.digits + x.exponent
  if x.digits = 0 then x.sign ++ "0.0"
  else if -5 < point ∧ point ≤ 16 then x.positional else x.scientific

example : ofDigits? false [1] [5] 0 = some ⟨false, 15, -1⟩ := by decide +kernel
example : ofDigits? true [0] [1] 0 = some ⟨true, 1, -1⟩ := by decide +kernel
example : ofDigits? false [1] [] 400 = none := by decide +kernel
example : ofDigits? false [5] [] (-324) = some ⟨false, 5, -324⟩ := by decide +kernel
example : (⟨false, 15, 15⟩ : Decimal).text = "1.5e+16" := by decide +kernel
example : (⟨true, 25, -9⟩ : Decimal).text = "-2.5e-8" := by decide +kernel

end Decimal
end EventDispatch
