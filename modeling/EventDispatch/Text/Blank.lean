/-!
# Blank text

**Rule.** A text is blank when nothing is left of it after the white space of every script is cut
from its ends, which is to say when it holds white space only.

**Contents**

* `isBlank`: the white space characters
* `allBlank`: texts of white space only
-/

namespace EventDispatch
namespace Text

/-- The white space characters of every script. -/
def isBlank (c : Char) : Bool :=
  (9 ≤ c.toNat && c.toNat ≤ 13) || c.toNat = 0x20 || c.toNat = 0x85 || c.toNat = 0xa0 ||
  c.toNat = 0x1680 || (0x2000 ≤ c.toNat && c.toNat ≤ 0x200a) || c.toNat = 0x2028 ||
  c.toNat = 0x2029 || c.toNat = 0x202f || c.toNat = 0x205f || c.toNat = 0x3000

/-- Whether trimming leaves nothing of the text. -/
def allBlank (s : String) : Bool := s.toList.all isBlank

/-- Every character that counts as white space elsewhere is blank here. -/
theorem isBlank_of_isWhitespace {c : Char} (h : c.isWhitespace = true) : isBlank c = true := by
  simp only [Char.isWhitespace, Bool.or_eq_true, decide_eq_true_eq] at h
  rcases h with ((h | h) | h) | h <;> subst h <;> decide

end Text
end EventDispatch
