import EventDispatch.Json.Value
import EventDispatch.Text.Digits

/-!
# Tokens of JSON text

**Input.** Text that should be a JSON document.

**Rule.** The text is cut into marks, literals, numbers and quoted texts; white space between them
is dropped. Text that starts no token ends the list with `junk`. A quoted text is read with its
escapes; one whose escapes name half of a surrogate pair has no content, and only a reader that
does not look at it lets it pass.

**Contents**

* `Token`, `NumberText`, `NumberText.value?`
* `scanText`, `scanNumber`, `scanToken`: one token, and what follows it
* `tokens`: all of them
-/

namespace EventDispatch
namespace Json

/-- A number as it is written. -/
structure NumberText where
  /-- Whether a minus sign stands before it. -/
  negative : Bool
  /-- The digits before the point. -/
  whole : List Nat
  /-- The digits after the point. -/
  fraction : List Nat
  /-- The power of ten after the `e`. -/
  exponent : Int
  /-- Whether it has neither a point nor an exponent. -/
  integral : Bool
deriving DecidableEq

/-- A piece of JSON text. -/
inductive Token where
  /-- The start of an object. -/
  | openBrace
  /-- The end of an object. -/
  | closeBrace
  /-- The start of an array. -/
  | openBracket
  /-- The end of an array. -/
  | closeBracket
  /-- The mark between a key and its value. -/
  | colon
  /-- The mark between fields or items. -/
  | comma
  /-- The literal `null`. -/
  | nothing
  /-- The literal `true` or `false`. -/
  | truth (b : Bool)
  /-- A number. -/
  | number (n : NumberText)
  /-- A quoted text, without content if its escapes leave half of a surrogate pair. -/
  | text (content : Option String)
  /-- Text that starts no token; nothing after it is read. -/
  | junk
deriving DecidableEq

/-- The number a text stands for: an integer if it is written as one and fits a word, and none if it
is too large for every float. A minus zero is no integer. -/
def NumberText.value? (n : NumberText) : Option Json :=
  let size := Text.valueIn 10 n.whole
  if n.integral ∧ !n.negative ∧ size < Nat.pow 2 64 then some (.int size)
  else if n.integral ∧ n.negative ∧ 0 < size ∧ size ≤ Nat.pow 2 63 then some (.int (-size))
  else (Decimal.ofDigits? n.negative n.whole n.fraction n.exponent).map .float

/-- The number of four hexadecimal digits. -/
def hexQuad? (a b c d : Char) : Option Nat := do
  pure (Text.valueIn 16
    [← Text.hexValue? a, ← Text.hexValue? b, ← Text.hexValue? c, ← Text.hexValue? d])

/-- The character that a one-letter escape stands for. -/
def escaped? (c : Char) : Option Char :=
  match c with
  | '"' => some '"'
  | '\\' => some '\\'
  | '/' => some '/'
  | 'b' => some '\x08'
  | 'f' => some '\x0c'
  | 'n' => some '\n'
  | 'r' => some '\r'
  | 't' => some '\t'
  | _ => none

/-- Reads a quoted text after its opening quote: its content, and what follows the closing quote.
The characters read so far are kept in reverse, and not at all once a lone surrogate was met. -/
def scanText : List Char → Option (List Char) → Option (Option String × List Char)
  | [], _ => none
  | '"' :: rest, acc => some (acc.map fun cs => String.ofList cs.reverse, rest)
  | '\\' :: 'u' :: a :: b :: c :: d :: '\\' :: 'u' :: e :: f :: g :: h :: rest, acc =>
    match hexQuad? a b c d with
    | none => none
    | some n =>
      if 0xd800 ≤ n ∧ n < 0xdc00 then
        match hexQuad? e f g h with
        | none => none
        | some m =>
          if 0xdc00 ≤ m ∧ m < 0xe000 then
            scanText rest (acc.map (Char.ofNat (0x10000 + (n - 0xd800) * 1024 + (m - 0xdc00)) :: ·))
          else scanText ('\\' :: 'u' :: e :: f :: g :: h :: rest) none
      else
        scanText ('\\' :: 'u' :: e :: f :: g :: h :: rest)
          (if 0xdc00 ≤ n ∧ n < 0xe000 then none else acc.map (Char.ofNat n :: ·))
  | '\\' :: 'u' :: a :: b :: c :: d :: rest, acc =>
    match hexQuad? a b c d with
    | none => none
    | some n =>
      scanText rest (if 0xd800 ≤ n ∧ n < 0xe000 then none else acc.map (Char.ofNat n :: ·))
  | '\\' :: c :: rest, acc =>
    match escaped? c with
    | none => none
    | some e => scanText rest (acc.map (e :: ·))
  | c :: rest, acc =>
    if c = '\\' ∨ c.toNat < 32 then none else scanText rest (acc.map (c :: ·))
termination_by cs => cs.length

/-- Reading a quoted text uses up at least the closing quote. -/
theorem length_scanText {cs rest : List Char} {acc : Option (List Char)} {content : Option String}
    (h : scanText cs acc = some (content, rest)) : rest.length < cs.length := by
  fun_induction scanText cs acc <;> simp_all <;> omega

/-- Splits off the longest run of decimal digits. -/
def spanDigits (cs : List Char) : List Nat × List Char :=
  ((cs.takeWhile Char.isDigit).map Text.digitValue, cs.dropWhile Char.isDigit)

/-- What follows the digits is no longer than the text, and shorter if there are digits. -/
theorem length_spanDigits {cs rest : List Char} {ds : List Nat} (h : spanDigits cs = (ds, rest)) :
    rest.length + ds.length = cs.length := by
  unfold spanDigits at h
  cases h
  have := congrArg List.length (List.takeWhile_append_dropWhile (p := Char.isDigit) (l := cs))
  simp only [List.length_append] at this
  simp only [List.length_map]
  omega

/-- Reads the part of a number after its whole digits: a fraction if there is a point. -/
def scanFraction (cs : List Char) : Option (List Nat × Bool × List Char) :=
  match cs with
  | '.' :: rest =>
    match spanDigits rest with
    | ([], _) => none
    | (digits, rest) => some (digits, true, rest)
  | _ => some ([], false, cs)

/-- What follows a fraction is no longer than the text. -/
theorem length_scanFraction {cs rest : List Char} {ds : List Nat} {pointed : Bool}
    (h : scanFraction cs = some (ds, pointed, rest)) : rest.length ≤ cs.length := by
  unfold scanFraction at h
  split at h
  · split at h
    · cases h
    · next hs =>
      cases h
      have := length_spanDigits hs
      simp only [List.length_cons]
      omega
  · cases h
    exact Nat.le_refl _

/-- Reads the sign of an exponent, if there is one. -/
def scanSign : List Char → Int × List Char
  | '+' :: rest => (1, rest)
  | '-' :: rest => (-1, rest)
  | cs => (1, cs)

/-- What follows a sign is no longer than the text. -/
theorem length_scanSign (cs : List Char) : (scanSign cs).2.length ≤ cs.length := by
  unfold scanSign
  split <;> simp

/-- Reads an exponent if there is one. -/
def scanExponent (cs : List Char) : Option (Int × Bool × List Char) :=
  match cs with
  | c :: rest =>
    if c = 'e' ∨ c = 'E' then
      match spanDigits (scanSign rest).2 with
      | ([], _) => none
      | (digits, after) => some ((scanSign rest).1 * Text.valueIn 10 digits, true, after)
    else some (0, false, cs)
  | [] => some (0, false, cs)

/-- What follows an exponent is no longer than the text. -/
theorem length_scanExponent {cs rest : List Char} {n : Int} {scaled : Bool}
    (h : scanExponent cs = some (n, scaled, rest)) : rest.length ≤ cs.length := by
  unfold scanExponent at h
  split at h
  · next c more =>
    split at h
    · split at h
      · cases h
      · next hs =>
        cases h
        have := length_spanDigits hs
        have := length_scanSign more
        simp only [List.length_cons]
        omega
    · cases h
      exact Nat.le_refl _
  · cases h
    exact Nat.le_refl _

/-- Reads a number after its sign. No zero stands before another digit. -/
def scanUnsigned (negative : Bool) (cs : List Char) : Option (NumberText × List Char) :=
  match spanDigits cs with
  | ([], _) => none
  | (whole, rest) =>
    if whole.head? = some 0 ∧ whole.length ≠ 1 then none
    else do
      let (fraction, pointed, rest) ← scanFraction rest
      let (exponent, scaled, rest) ← scanExponent rest
      pure (⟨negative, whole, fraction, exponent, !pointed && !scaled⟩, rest)

/-- A number without a sign has at least one digit. -/
theorem length_scanUnsigned {negative : Bool} {cs rest : List Char} {n : NumberText}
    (h : scanUnsigned negative cs = some (n, rest)) : rest.length < cs.length := by
  unfold scanUnsigned at h
  split at h
  · cases h
  · next digits after hne hs =>
    have hspan := length_spanDigits hs
    have hpos : 0 < digits.length := List.length_pos_iff.2 hne
    split at h
    · cases h
    · simp only [Option.bind_eq_bind, Option.bind_eq_some_iff] at h
      obtain ⟨⟨fraction, pointed, afterFraction⟩, hf, ⟨exponent, scaled, last⟩, he, hn⟩ := h
      cases hn
      have hfraction := length_scanFraction hf
      have hexponent := length_scanExponent he
      dsimp only at hfraction hexponent ⊢
      omega

/-- Reads a number: what it says, and what follows it. -/
def scanNumber (cs : List Char) : Option (NumberText × List Char) :=
  match cs with
  | '-' :: rest => scanUnsigned true rest
  | _ => scanUnsigned false cs

/-- A number uses up at least one character. -/
theorem length_scanNumber {cs rest : List Char} {n : NumberText}
    (h : scanNumber cs = some (n, rest)) : rest.length < cs.length := by
  unfold scanNumber at h
  split at h
  · have := length_scanUnsigned h
    simp only [List.length_cons]
    omega
  · exact length_scanUnsigned h

/-- The first token of a text without white space before it, and what follows it. -/
def scanToken : List Char → Option (Token × List Char)
  | '\x7b' :: rest => some (.openBrace, rest)
  | '\x7d' :: rest => some (.closeBrace, rest)
  | '[' :: rest => some (.openBracket, rest)
  | ']' :: rest => some (.closeBracket, rest)
  | ':' :: rest => some (.colon, rest)
  | ',' :: rest => some (.comma, rest)
  | 'n' :: 'u' :: 'l' :: 'l' :: rest => some (.nothing, rest)
  | 't' :: 'r' :: 'u' :: 'e' :: rest => some (.truth true, rest)
  | 'f' :: 'a' :: 'l' :: 's' :: 'e' :: rest => some (.truth false, rest)
  | '"' :: rest => (scanText rest (some [])).map fun (content, rest) => (.text content, rest)
  | cs => (scanNumber cs).map fun (n, rest) => (.number n, rest)

/-- A token uses up at least one character. -/
theorem length_scanToken {cs rest : List Char} {token : Token}
    (h : scanToken cs = some (token, rest)) : rest.length < cs.length := by
  unfold scanToken at h
  split at h
  case h_10 =>
    obtain ⟨⟨content, after⟩, hs, heq⟩ := Option.map_eq_some_iff.1 h
    cases heq
    have := length_scanText hs
    simp only [List.length_cons]
    omega
  case h_11 =>
    obtain ⟨⟨n, after⟩, hs, heq⟩ := Option.map_eq_some_iff.1 h
    cases heq
    exact length_scanNumber hs
  all_goals
    cases h
    simp only [List.length_cons]
    omega

/-- White space between tokens. -/
def isSpace (c : Char) : Bool := c = ' ' || c = '\n' || c = '\t' || c = '\r'

/-- The tokens of a text from some point on. -/
def tokensOf (cs : List Char) : List Token :=
  match cs with
  | [] => []
  | c :: rest =>
    if isSpace c then tokensOf rest
    else
      match h : scanToken (c :: rest) with
      | none => [.junk]
      | some (token, after) =>
        have := length_scanToken h
        token :: tokensOf after
termination_by cs.length
decreasing_by
  · exact Nat.lt_succ_self rest.length
  · exact this

/-- The tokens of a text. -/
def tokens (s : String) : List Token := tokensOf s.toList

end Json
end EventDispatch
