import EventDispatch.Text.Digits
import EventDispatch.Text.Hidden

/-!
# Quoted text

**Input.** Any text.

**Rule.** It is written between double quotes. A double quote and a backslash take a backslash, the
tab, the line ends and the null character have one-letter escapes, every other character without a
mark of its own is spelled by its code point in lower-case hexadecimal, and the rest stands as it is.

**Contents**

* `quotedChar`, `quoted`
* `listed`, `braced`: several texts inside brackets or braces
-/

namespace EventDispatch
namespace Text

/-- One character as it stands between quotes. -/
def quotedChar (c : Char) : String :=
  if c = '"' then "\\\""
  else if c = '\\' then "\\\\"
  else if c = '\n' then "\\n"
  else if c = '\t' then "\\t"
  else if c = '\r' then "\\r"
  else if c.toNat = 0 then "\\0"
  else if isHidden c then "\\u\x7b" ++ hexDigits c.toNat ++ "\x7d"
  else String.singleton c

/-- The text between double quotes, with escapes. -/
def quoted (s : String) : String :=
  "\"" ++ String.join (s.toList.map quotedChar) ++ "\""

/-- Items in square brackets, separated by commas. -/
def listed (items : List String) : String := "[" ++ String.intercalate ", " items ++ "]"

/-- Items in braces, separated by commas. -/
def braced (items : List String) : String := "\x7b" ++ String.intercalate ", " items ++ "\x7d"

end Text
end EventDispatch
