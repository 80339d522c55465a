import EventDispatch.Number.Decimal
import EventDispatch.Text.Digits

/-!
# Texts, numbers and times in a configuration document

**Input.** The characters of a document from some point on.

**Rules.** A text stands in double quotes with escapes, or in single quotes as it is; three quotes
instead of one let it run over several lines. Its first line end is dropped then, and so is a
backslash at the end of a line with the white space that follows. Digits may be grouped with single
underscores. A time is a date, a time of day, or both with or without an offset.

**Contents**

* `Reader`
* `readBasic`, `readLiteral`, `readManyBasic`, `readManyLiteral`
* `readInteger`, `readFloat`, `readMoment`
-/

namespace EventDispatch
namespace Toml

/-- Reads something off the front of a text. -/
abbrev Reader (α : Type) := List Char → Option (α × List Char)

/-- White space within a line. -/
def isBlank (c : Char) : Bool := c = ' ' || c = '\t'

/-- The characters of comments and of texts. -/
def isPrintable (c : Char) : Bool := c = '\t' || (32 ≤ c.toNat && c.toNat ≠ 127)

/-- Drops white space within a line. -/
def skipBlank (cs : List Char) : List Char := cs.dropWhile isBlank

/-- Reads the end of a line. -/
def newline? : List Char → Option (List Char)
  | '\n' :: rest => some rest
  | '\r' :: '\n' :: rest => some rest
  | _ => none

/-- The number of hexadecimal digits, if they are that. -/
def hexNumber? (cs : List Char) : Option Nat := (cs.mapM Text.hexValue?).map (Text.valueIn 16)

/-- The character of a number, if it has one. -/
def character? (n : Nat) : Option Char :=
  if n.isValidChar then some (Char.ofNat n) else none

/-- The characters that one-letter escapes stand for. -/
def letterEscapes : List (Char × Char) :=
  [('b', '\x08'), ('t', '\t'), ('n', '\n'), ('f', '\x0c'), ('r', '\r'), ('"', '"'), ('\\', '\\')]

/-- Reads an escape after its backslash. -/
def readEscape : Reader Char
  | 'u' :: a :: b :: c :: d :: rest =>
    ((hexNumber? [a, b, c, d]).bind character?).map fun x => (x, rest)
  | 'U' :: a :: b :: c :: d :: e :: f :: g :: h :: rest =>
    ((hexNumber? [a, b, c, d, e, f, g, h]).bind character?).map fun x => (x, rest)
  | c :: rest => (letterEscapes.lookup c).map fun x => (x, rest)
  | [] => none

/-- An escape is made of at least one character. -/
theorem length_readEscape {cs rest : List Char} {c : Char} (h : readEscape cs = some (c, rest)) :
    rest.length < cs.length := by
  unfold readEscape at h
  split at h
  · obtain ⟨x, _, hx⟩ := Option.map_eq_some_iff.1 h
    cases hx
    simp only [List.length_cons]
    omega
  · obtain ⟨x, _, hx⟩ := Option.map_eq_some_iff.1 h
    cases hx
    simp only [List.length_cons]
    omega
  · obtain ⟨x, _, hx⟩ := Option.map_eq_some_iff.1 h
    cases hx
    simp
  · cases h

/-- Reads a text of one line after its double quote; `acc` holds what was read, last first. -/
def readBasic (acc : List Char) (cs : List Char) : Option (String × List Char) :=
  match cs with
  | [] => none
  | c :: rest =>
    if c = '"' then some (String.ofList acc.reverse, rest)
    else if c = '\\' then
      match h : readEscape rest with
      | some (x, after) =>
        have := length_readEscape h
        readBasic (x :: acc) after
      | none => none
    else if isPrintable c then readBasic (c :: acc) rest
    else none
termination_by cs.length
decreasing_by
  · simp only [List.length_cons]
    omega
  · simp

/-- Reads a text of one line after its single quote. -/
def readLiteral (acc : List Char) : List Char → Option (String × List Char)
  | [] => none
  | c :: rest =>
    if c = '\'' then some (String.ofList acc.reverse, rest)
    else if isPrintable c then readLiteral (c :: acc) rest
    else none

/-- Drops white space and line ends. -/
def skipLines : List Char → List Char
  | '\r' :: '\n' :: rest => skipLines rest
  | c :: rest => if c = '\n' ∨ isBlank c then skipLines rest else c :: rest
  | [] => []

/-- What follows a backslash that continues a line, if it does. -/
def continuation? (cs : List Char) : Option (List Char) := (newline? (skipBlank cs)).map skipLines

/-- Dropping white space leaves no more than there was. -/
theorem length_skipBlank (cs : List Char) : (skipBlank cs).length ≤ cs.length :=
  (List.dropWhile_sublist _).length_le

/-- Dropping lines leaves no more than there was. -/
theorem length_skipLines (cs : List Char) : (skipLines cs).length ≤ cs.length := by
  fun_induction skipLines cs <;> simp_all <;> omega

/-- The end of a line is made of at least one character. -/
theorem length_newline? {cs rest : List Char} (h : newline? cs = some rest) :
    rest.length < cs.length := by
  unfold newline? at h
  split at h <;> cases h <;> simp only [List.length_cons] <;> omega

/-- A line that is continued is shorter than before. -/
theorem length_continuation? {cs rest : List Char} (h : continuation? cs = some rest) :
    rest.length < cs.length := by
  obtain ⟨after, hn, rfl⟩ := Option.map_eq_some_iff.1 h
  have h₁ := length_skipBlank cs
  have h₂ := length_newline? hn
  have h₃ := length_skipLines after
  omega

/-- Reads a text of several lines after its double quotes and first line end. Up to two quotes may
stand in it together, also before the closing ones. -/
def readManyBasic (acc : List Char) (cs : List Char) : Option (String × List Char) :=
  match cs with
  | '"' :: '"' :: '"' :: '"' :: '"' :: rest =>
    some (String.ofList ('"' :: '"' :: acc).reverse, rest)
  | '"' :: '"' :: '"' :: '"' :: rest => some (String.ofList ('"' :: acc).reverse, rest)
  | '"' :: '"' :: '"' :: rest => some (String.ofList acc.reverse, rest)
  | '\r' :: '\n' :: rest => readManyBasic ('\n' :: acc) rest
  | '\\' :: rest =>
    match h : continuation? rest with
    | some after =>
      have := length_continuation? h
      readManyBasic acc after
    | none =>
      match h : readEscape rest with
      | some (x, after) =>
        have := length_readEscape h
        readManyBasic (x :: acc) after
      | none => none
  | c :: rest =>
    if c = '\n' ∨ isPrintable c then readManyBasic (c :: acc) rest else none
  | [] => none
termination_by cs.length
decreasing_by
  all_goals
    simp only [List.length_cons]
    omega

/-- Reads a text of several lines after its single quotes and first line end. -/
def readManyLiteral (acc : List Char) : List Char → Option (String × List Char)
  | '\'' :: '\'' :: '\'' :: '\'' :: '\'' :: rest =>
    some (String.ofList ('\'' :: '\'' :: acc).reverse, rest)
  | '\'' :: '\'' :: '\'' :: '\'' :: rest => some (String.ofList ('\'' :: acc).reverse, rest)
  | '\'' :: '\'' :: '\'' :: rest => some (String.ofList acc.reverse, rest)
  | '\r' :: '\n' :: rest => readManyLiteral ('\n' :: acc) rest
  | c :: rest => if c = '\n' ∨ isPrintable c then readManyLiteral (c :: acc) rest else none
  | [] => none

/-- Drops one line end, if there is one. -/
def skipNewline (cs : List Char) : List Char := (newline? cs).getD cs

/-- Reads a text in any of its forms. -/
def readText : Reader String
  | '"' :: '"' :: '"' :: rest => readManyBasic [] (skipNewline rest)
  | '"' :: rest => readBasic [] rest
  | '\'' :: '\'' :: '\'' :: rest => readManyLiteral [] (skipNewline rest)
  | '\'' :: rest => readLiteral [] rest
  | _ => none

/-- Reads digits after one that was read; an underscore stands only between two digits. -/
def readMoreDigits (value? : Char → Option Nat) : List Char → Option (List Nat × List Char)
  | '_' :: c :: rest =>
    match value? c with
    | some d => (readMoreDigits value? rest).map fun (ds, after) => (d :: ds, after)
    | none => none
  | '_' :: [] => none
  | c :: rest =>
    match value? c with
    | some d => (readMoreDigits value? rest).map fun (ds, after) => (d :: ds, after)
    | none => some ([], c :: rest)
  | [] => some ([], [])

/-- Reads at least one digit. -/
def readDigits (value? : Char → Option Nat) : Reader (List Nat)
  | c :: rest =>
    match value? c with
    | some d => (readMoreDigits value? rest).map fun (ds, after) => (d :: ds, after)
    | none => none
  | [] => none

/-- The value of a digit in a base of at most sixteen. -/
def digitIn? (base : Nat) (c : Char) : Option Nat := (Text.hexValue? c).filter (· < base)

/-- Reads a sign if there is one: whether it is a minus. -/
def readSign : List Char → Bool × List Char
  | '-' :: rest => (true, rest)
  | '+' :: rest => (false, rest)
  | cs => (false, cs)

/-- Reads whole decimal digits: a zero stands alone. -/
def readWhole : Reader (List Nat)
  | '0' :: rest => some ([0], rest)
  | cs => readDigits (digitIn? 10) cs

/-- The integer, if it fits 64 bits. -/
def inRange? (n : Int) : Option Int :=
  if -9223372036854775808 ≤ n ∧ n ≤ 9223372036854775807 then some n else none

/-- Reads a number without a sign in a base. -/
def readInBase (base : Nat) (cs : List Char) : Option (Int × List Char) := do
  let (digits, rest) ← readDigits (digitIn? base) cs
  pure (← inRange? (Text.valueIn base digits), rest)

/-- Reads an integer. -/
def readInteger : Reader Int
  | '0' :: 'x' :: rest => readInBase 16 rest
  | '0' :: 'o' :: rest => readInBase 8 rest
  | '0' :: 'b' :: rest => readInBase 2 rest
  | cs => do
    let (negative, cs) := readSign cs
    let (digits, rest) ← readWhole cs
    let n : Int := Text.valueIn 10 digits
    pure (← inRange? (if negative then -n else n), rest)

/-- Reads an exponent if there is one. -/
def readExponent (cs : List Char) : Option (Int × List Char) :=
  match cs with
  | [] => some (0, [])
  | c :: rest =>
    if c = 'e' ∨ c = 'E' then do
      let (negative, rest) := readSign rest
      let (digits, rest) ← readDigits (digitIn? 10) rest
      let n : Int := Text.valueIn 10 digits
      pure (if negative then -n else n, rest)
    else some (0, cs)

/-- What follows a number with a fraction or an exponent. A positive one must not be too large for
every float. -/
def readFinite (negative : Bool) (cs : List Char) : Option (List Char) := do
  let (whole, cs) ← readWhole cs
  let (fraction, cs, pointed) ←
    match cs with
    | '.' :: rest => (readDigits (digitIn? 10) rest).map fun (ds, rest) => (ds, rest, true)
    | _ => some ([], cs, false)
  let (exponent, rest) ← readExponent cs
  if pointed = false ∧ rest.length = cs.length then none
  else if negative = false ∧ Decimal.exceedsFloats (Text.valueIn 10 (whole ++ fraction))
      (exponent - fraction.length) then none
  else some rest

/-- What follows a number that is no integer. -/
def readFloat (cs : List Char) : Option (List Char) :=
  match readSign cs with
  | (_, 'i' :: 'n' :: 'f' :: rest) => some rest
  | (_, 'n' :: 'a' :: 'n' :: rest) => some rest
  | (negative, rest) => readFinite negative rest

/-- Reads a number of so many digits between two bounds. -/
def readFixed (count least greatest : Nat) (cs : List Char) : Option (Nat × List Char) := do
  let n ← (if (cs.take count).length = count then Text.natural? (cs.take count) else none)
  if least ≤ n ∧ n ≤ greatest then pure (n, cs.drop count) else none

/-- Reads a given character. -/
def readMark (c : Char) : List Char → Option (List Char)
  | d :: rest => if c = d then some rest else none
  | [] => none

/-- The number of days of a month. -/
def daysIn (year month : Nat) : Nat :=
  if month = 2 then
    if year % 4 = 0 ∧ (year % 100 ≠ 0 ∨ year % 400 = 0) then 29 else 28
  else if month = 4 ∨ month = 6 ∨ month = 9 ∨ month = 11 then 30
  else 31

/-- What follows a date. -/
def readDate (cs : List Char) : Option (List Char) := do
  let (year, cs) ← readFixed 4 0 9999 cs
  let (month, cs) ← readFixed 2 1 12 (← readMark '-' cs)
  let (_, cs) ← readFixed 2 1 (daysIn year month) (← readMark '-' cs)
  pure cs

/-- What follows a time of day. -/
def readTime (cs : List Char) : Option (List Char) := do
  let (_, cs) ← readFixed 2 0 23 cs
  let (_, cs) ← readFixed 2 0 59 (← readMark ':' cs)
  let (_, cs) ← readFixed 2 0 60 (← readMark ':' cs)
  match cs with
  | '.' :: c :: rest => pure (if c.isDigit then rest.dropWhile Char.isDigit else cs)
  | _ => pure cs

/-- What follows an offset, if there is one. -/
def readOffset (cs : List Char) : Option (List Char) :=
  match cs with
  | [] => some []
  | c :: rest =>
    if c = 'Z' ∨ c = 'z' then some rest
    else if c = '+' ∨ c = '-' then do
      let (_, rest) ← readFixed 2 0 23 rest
      let (_, rest) ← readFixed 2 0 59 (← readMark ':' rest)
      pure rest
    else some cs

/-- What follows a point in time, a date or a time of day. -/
def readMoment (cs : List Char) : Option (List Char) :=
  match readDate cs with
  | none => readTime cs
  | some after =>
    match after with
    | [] => some []
    | c :: rest =>
      if c = 'T' ∨ c = 't' ∨ c = ' ' then
        match readTime rest with
        | some rest => readOffset rest
        | none => some after
      else some after

end Toml
end EventDispatch
