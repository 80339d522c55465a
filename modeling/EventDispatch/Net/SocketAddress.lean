import EventDispatch.Text.Digits

/-!
# Socket addresses

**Input.** The text of a host address and a port.

**Rules.** A host of four numbers is written with dots, each number without a zero before it. A host
of eight groups is written in brackets, in hexadecimal with colons; one run of zero groups may be left
out between two colons, and the last two groups may be written as four numbers. A scope may follow
it after a percent sign. The longest run of at least two zero groups is left out when an address is
written, the first of several; only an address that stands for four numbers is written with them.

**Contents**

* `HostAddress`, `SocketAddress`
* `SocketAddress.ofText?`, `SocketAddress.text`
-/

namespace EventDispatch

/-- The address of a host. -/
inductive HostAddress where
  /-- Four numbers below 256. -/
  | quad (a b c d : Nat)
  /-- Eight groups of 16 bits, and a scope. -/
  | groups (gs : List Nat) (scope : Nat)
deriving DecidableEq, Repr

/-- The address of a host with a port. -/
structure SocketAddress where
  /-- The host. -/
  host : HostAddress
  /-- The port. -/
  port : Nat
deriving DecidableEq, Repr

namespace SocketAddress

/-- The longest run of digits at the front, by the value of a digit. -/
def spanDigits (value? : Char → Option Nat) : List Char → List Nat × List Char
  | [] => ([], [])
  | c :: rest =>
    match value? c with
    | none => ([], c :: rest)
    | some d => (d :: (spanDigits value? rest).1, (spanDigits value? rest).2)

/-- The value of a decimal digit, if it is one. -/
def decimal? (c : Char) : Option Nat := if c.isDigit then some (Text.digitValue c) else none

/-- Reads a number below a bound in as many digits as there are. -/
def readNumber (bound : Nat) (cs : List Char) : Option (Nat × List Char) :=
  match spanDigits decimal? cs with
  | ([], _) => none
  | (digits, rest) =>
    if Text.valueIn 10 digits < bound then some (Text.valueIn 10 digits, rest) else none

/-- Reads one of four numbers: at most three digits, no zero before another. -/
def readByte (cs : List Char) : Option (Nat × List Char) :=
  match spanDigits decimal? cs with
  | ([], _) => none
  | (digits, rest) =>
    if digits.length ≤ 3 ∧ (digits.head? = some 0 → digits.length = 1) ∧
        Text.valueIn 10 digits < 256 then
      some (Text.valueIn 10 digits, rest)
    else none

/-- Reads a group: at most four hexadecimal digits. -/
def readGroup (cs : List Char) : Option (Nat × List Char) :=
  match spanDigits Text.hexValue? cs with
  | ([], _) => none
  | (digits, rest) =>
    if digits.length ≤ 4 then some (Text.valueIn 16 digits, rest) else none

/-- Reads a given character. -/
def readMark (c : Char) : List Char → Option (List Char)
  | d :: rest => if c = d then some rest else none
  | [] => none

/-- Reads four numbers with dots. -/
def readQuad (cs : List Char) : Option ((Nat × Nat × Nat × Nat) × List Char) := do
  let (a, cs) ← readByte cs
  let (b, cs) ← readByte (← readMark '.' cs)
  let (c, cs) ← readByte (← readMark '.' cs)
  let (d, cs) ← readByte (← readMark '.' cs)
  pure ((a, b, c, d), cs)

/-- The two groups of four numbers. -/
def pairGroups (q : Nat × Nat × Nat × Nat) : List Nat :=
  [q.1 * 256 + q.2.1, q.2.2.1 * 256 + q.2.2.2]

/-- Reads groups with colons, at most `room` of them, until something else stands there; `first` tells
that no group was read yet. Also says whether the last two were written as four numbers. -/
def readGroups (first : Bool) : (room : Nat) → List Char → (List Nat × Bool) × List Char
  | 0, cs => (([], false), cs)
  | room + 1, cs =>
    let inner? := if first then some cs else readMark ':' cs
    let quad? := if room = 0 then none else inner?.bind readQuad
    match quad? with
    | some (q, rest) => ((pairGroups q, true), rest)
    | none =>
      match inner?.bind readGroup with
      | none => (([], false), cs)
      | some (g, rest) =>
        match readGroups false room rest with
        | ((gs, quad), rest) => ((g :: gs, quad), rest)

/-- Reads a host of eight groups. -/
def readHost (cs : List Char) : Option (List Nat × List Char) :=
  match readGroups true 8 cs with
  | ((before, quad), rest) =>
    if before.length = 8 then some (before, rest)
    else if quad then none
    else do
      let rest ← readMark ':' (← readMark ':' rest)
      let ((after, _), rest) := readGroups true (7 - before.length) rest
      pure (before ++ List.replicate (8 - before.length - after.length) 0 ++ after, rest)

/-- Reads a colon and a port. -/
def readPort (cs : List Char) : Option (Nat × List Char) := do
  readNumber 65536 (← readMark ':' cs)

/-- Reads a scope, if one follows. -/
def readScope (cs : List Char) : Nat × List Char :=
  match (readMark '%' cs).bind (readNumber 4294967296) with
  | some (scope, rest) => (scope, rest)
  | none => (0, cs)

/-- Reads an address with four numbers. -/
def ofQuadText? (cs : List Char) : Option SocketAddress := do
  let ((a, b, c, d), cs) ← readQuad cs
  match ← readPort cs with
  | (port, []) => pure ⟨.quad a b c d, port⟩
  | _ => none

/-- Reads an address with eight groups. -/
def ofGroupsText? (cs : List Char) : Option SocketAddress := do
  let (gs, cs) ← readHost (← readMark '[' cs)
  let (scope, cs) := readScope cs
  match ← readPort (← readMark ']' cs) with
  | (port, []) => pure ⟨.groups gs scope, port⟩
  | _ => none

/-- Reads an address. -/
def ofText? (s : String) : Option SocketAddress :=
  match ofQuadText? s.toList with
  | some a => some a
  | none => ofGroupsText? s.toList

/-- Four numbers with dots. -/
def quadText (a b c d : Nat) : String :=
  String.intercalate "." ([a, b, c, d].map toString)

/-- Groups with colons. -/
def groupsText (gs : List Nat) : String := String.intercalate ":" (gs.map Text.hexDigits)

/-- The number of zeros at the front. -/
def zerosAhead (gs : List Nat) : Nat := (gs.takeWhile (· = 0)).length

/-- Start and length of the longest run of zeros, the first of several; `start` counts the groups
before. -/
def longestZeros (start : Nat) : List Nat → Nat × Nat
  | [] => (0, 0)
  | g :: rest =>
    let here := zerosAhead (g :: rest)
    let later := longestZeros (start + 1) rest
    if later.2 ≤ here then (start, here) else later

/-- A host of eight groups in words. -/
def hostText (gs : List Nat) : String :=
  match gs with
  | [0, 0, 0, 0, 0, 65535, g, h] =>
    "::ffff:" ++ quadText (g / 256) (g % 256) (h / 256) (h % 256)
  | gs =>
    let (start, length) := longestZeros 0 gs
    if 1 < length then
      groupsText (gs.take start) ++ "::" ++ groupsText (gs.drop (start + length))
    else groupsText gs

/-- The written form of an address. -/
def text (a : SocketAddress) : String :=
  match a.host with
  | .quad w x y z => quadText w x y z ++ ":" ++ toString a.port
  | .groups gs scope =>
    "[" ++ hostText gs ++ (if scope = 0 then "" else "%" ++ toString scope) ++ "]:" ++
      toString a.port

instance : ToString SocketAddress := ⟨text⟩

end SocketAddress
end EventDispatch
