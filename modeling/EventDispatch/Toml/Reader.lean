import EventDispatch.Toml.Text
import EventDispatch.Toml.Value

/-!
# Reading configuration documents

**Input.** The text of a document.

**Algorithm.** A document is cut into statements, one a line. Values nest by a limit on which the
reader recurs; the loops over the items of a container and over statements use up characters, whose
number bounds them.

**Rules.** Items of an array may stand on lines of their own, with comments, and the last may be
followed by a comma. Fields in braces stand on one line, without a comma after the last. A key has
less parts than the limit.

**Contents**

* `nestingLimit`
* `readKey`, `readValue`, `readStatement`
* `parse`: the fields of a document
-/

namespace EventDispatch
namespace Toml

/-- Containers nest less deeply than this, and keys have fewer parts. -/
def nestingLimit : Nat := 80

/-- The characters of a key without quotes. -/
def isBareChar (c : Char) : Bool := c.isAlphanum || c = '-' || c = '_'

/-- Reads one part of a key. -/
def readKeyPart : Reader String
  | '"' :: rest => readBasic [] rest
  | '\'' :: rest => readLiteral [] rest
  | cs =>
    match cs.takeWhile isBareChar with
    | [] => none
    | part => some (String.ofList part, cs.dropWhile isBareChar)

/-- Reads the parts of a key; at most `fuel` of them. -/
def readKeyParts : (fuel : Nat) → Reader (List String)
  | 0, _ => none
  | fuel + 1, cs => do
    let (part, cs) ← readKeyPart (skipBlank cs)
    match skipBlank cs with
    | '.' :: rest => do
      let (parts, rest) ← readKeyParts fuel rest
      pure (part :: parts, rest)
    | rest => pure ([part], rest)

/-- Reads a key with the white space around it. -/
def readKey : Reader (List String) := readKeyParts (nestingLimit - 1)

/-- Drops white space, line ends and comments; a comment must end with its line. -/
def skipGaps : (fuel : Nat) → List Char → Option (List Char)
  | 0, cs => some cs
  | fuel + 1, cs =>
    match cs with
    | '#' :: rest =>
      match newline? (rest.dropWhile isPrintable) with
      | some after => skipGaps fuel after
      | none => none
    | '\r' :: _ =>
      match newline? cs with
      | some after => skipGaps fuel after
      | none => none
    | c :: rest => if c = '\n' ∨ isBlank c then skipGaps fuel rest else some cs
    | [] => some []

/-- Drops what stands between the items of an array. -/
def skipGap (cs : List Char) : Option (List Char) := skipGaps cs.length cs

/-- Reads the items of an array from one on, up to its closing bracket. -/
def readItems (value : Reader Value) : (fuel : Nat) → Reader (List Value)
  | 0, _ => none
  | fuel + 1, cs => do
    let cs ← skipGap cs
    match cs with
    | ']' :: rest => pure ([], rest)
    | cs => do
      let (v, cs) ← value cs
      match ← skipGap cs with
      | ',' :: rest => do
        let (vs, rest) ← readItems value fuel rest
        pure (v :: vs, rest)
      | ']' :: rest => pure ([v], rest)
      | _ => none

/-- Reads the fields of a table in braces from one on, up to its closing brace. -/
def readFields (value : Reader Value) : (fuel : Nat) → Reader (List (List String × Value))
  | 0, _ => none
  | fuel + 1, cs => do
    let (key, cs) ← readKey cs
    let (v, cs) ← value (skipBlank (← readMark '=' cs))
    match skipBlank cs with
    | ',' :: rest => do
      let (more, rest) ← readFields value fuel rest
      pure ((key, v) :: more, rest)
    | '\x7d' :: rest => pure ([(key, v)], rest)
    | _ => none

/-- The table of fields in braces, if they agree with each other. -/
def inlineTable? (fields : List (List String × Value)) : Option Value :=
  (fields.foldlM (fun acc (key, v) => assign v key .inline acc) []).map (.table .inline)

/-- Reads a table after its opening brace. -/
def readInline (value : Reader Value) (cs : List Char) : Option (Value × List Char) :=
  match skipBlank cs with
  | '\x7d' :: rest => some (.table .inline [], rest)
  | cs => do
    let (fields, rest) ← readFields value cs.length cs
    pure (← inlineTable? fields, rest)

/-- Reads a number or a time. -/
def readNumber (cs : List Char) : Option (Value × List Char) :=
  match readMoment cs with
  | some rest => some (.moment, rest)
  | none =>
    match readFloat cs with
    | some rest => some (.float, rest)
    | none => (readInteger cs).map fun (n, rest) => (.integer n, rest)

/-- Reads a value in which at most `depth` containers are open at a time. -/
def readValue : (depth : Nat) → Reader Value
  | depth, cs =>
    match cs with
    | 't' :: 'r' :: 'u' :: 'e' :: rest => some (.truth true, rest)
    | 'f' :: 'a' :: 'l' :: 's' :: 'e' :: rest => some (.truth false, rest)
    | c :: rest =>
      if c = '"' ∨ c = '\'' then (readText cs).map fun (s, rest) => (.text s, rest)
      else if c = '[' then
        match depth with
        | 0 => none
        | depth + 1 => do
          let (items, rest) ← readItems (readValue depth) (rest.length + 1) rest
          pure (.array items, rest)
      else if c = '\x7b' then
        match depth with
        | 0 => none
        | depth + 1 => readInline (readValue depth) rest
      else readNumber cs
    | [] => none

/-- What follows the end of a line, after white space and a comment. -/
def readLineEnd (cs : List Char) : Option (List Char) :=
  let after :=
    match skipBlank cs with
    | '#' :: rest => rest.dropWhile isPrintable
    | rest => rest
  match after with
  | [] => some []
  | rest => newline? rest

/-- Reads a header after its brackets. -/
def readHeader (close : List Char → Option (List Char)) (cs : List Char) :
    Option (List String × List Char) := do
  let (key, cs) ← readKey cs
  let rest ← close cs
  pure (key, ← readLineEnd rest)

/-- Reads one statement with its line. -/
def readStatement : Reader Statement
  | '[' :: '[' :: rest => do
    let (key, rest) ← readHeader (fun cs => (readMark ']' cs).bind (readMark ']')) rest
    pure (.row key, rest)
  | '[' :: rest => do
    let (key, rest) ← readHeader (readMark ']') rest
    pure (.header key, rest)
  | cs => do
    let (key, cs) ← readKey cs
    let (v, cs) ← readValue (nestingLimit - 1) (skipBlank (← readMark '=' cs))
    pure (.assign key v, ← readLineEnd cs)

/-- Reads the statements of a document. -/
def readStatements : (fuel : Nat) → List Char → Option (List Statement)
  | 0, _ => some []
  | fuel + 1, cs =>
    match skipBlank cs with
    | [] => some []
    | c :: rest =>
      if c = '#' ∨ c = '\n' ∨ c = '\r' then do
        let rest ← readLineEnd (c :: rest)
        readStatements fuel rest
      else do
        let (statement, rest) ← readStatement (c :: rest)
        pure (statement :: (← readStatements fuel rest))

/-- The characters of a text without the mark of its byte order. -/
def withoutMark (s : String) : List Char :=
  match s.toList with
  | c :: rest => if c.toNat = 0xfeff then rest else c :: rest
  | [] => []

/-- The fields of a document, if the text is one. -/
def parse (s : String) : Option Fields :=
  let cs := withoutMark s
  (readStatements (cs.length + 1) cs).bind Document.ofStatements?

end Toml
end EventDispatch
