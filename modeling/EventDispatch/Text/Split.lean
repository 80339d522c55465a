/-!
# Parts of a text

**Rule.** A text is cut at every separator, or at one of them. The parts may be empty, and those of
a text cut at every separator hold none.

**Contents**

* `splitOn`: at every separator
* `splitFirst?`, `splitLast?`: at one of them
* `splitLastWord?`: at the last place where a word stands
-/

namespace EventDispatch
namespace Text

/-- The parts between the separators; a text without one is its only part. -/
def splitOn (separator : Char) : List Char → List (List Char)
  | [] => [[]]
  | c :: rest =>
    if c = separator then [] :: splitOn separator rest
    else
      match splitOn separator rest with
      | [] => [[c]]
      | part :: parts => (c :: part) :: parts

/-- What stands before and after the first separator, if there is one. -/
def splitFirst? (separator : Char) : List Char → Option (List Char × List Char)
  | [] => none
  | c :: rest =>
    if c = separator then some ([], rest)
    else (splitFirst? separator rest).map fun (before, after) => (c :: before, after)

/-- What stands before and after the last separator, if there is one. -/
def splitLast? (separator : Char) (cs : List Char) : Option (List Char × List Char) :=
  (splitFirst? separator cs.reverse).map fun (after, before) => (before.reverse, after.reverse)

/-- What stands before and after the last place where a word stands, if there is one. -/
def splitLastWord? (word : List Char) : List Char → Option (List Char × List Char)
  | [] => if word = [] then some ([], []) else none
  | c :: rest =>
    match splitLastWord? word rest with
    | some (before, after) => some (c :: before, after)
    | none =>
      if word.isPrefixOf (c :: rest) then some ([], (c :: rest).drop word.length) else none

/-- No text is without a part. -/
theorem splitOn_ne_nil (separator : Char) (cs : List Char) : splitOn separator cs ≠ [] := by
  cases cs with
  | nil => simp [splitOn]
  | cons c rest =>
    simp only [splitOn]
    split
    · simp
    · split <;> simp

/-- The parts, joined by the separator, are the text. -/
theorem intercalate_splitOn (separator : Char) (cs : List Char) :
    [separator].intercalate (splitOn separator cs) = cs := by
  induction cs with
  | nil => rfl
  | cons c rest ih =>
    have hne := splitOn_ne_nil separator rest
    simp only [splitOn]
    split
    · next h =>
      subst h
      cases hs : splitOn c rest with
      | nil => exact absurd hs hne
      | cons part parts =>
        rw [hs] at ih
        simpa [List.intercalate, List.intersperse] using ih
    · cases hs : splitOn separator rest with
      | nil => exact absurd hs hne
      | cons part parts =>
        rw [hs] at ih
        cases parts with
        | nil => simpa [List.intercalate, List.intersperse] using ih
        | cons next more => simpa [List.intercalate, List.intersperse] using ih

/-- The parts around the last place of a word, with the word between them, are the text. -/
theorem append_splitLastWord? {word cs before after : List Char}
    (h : splitLastWord? word cs = some (before, after)) : before ++ word ++ after = cs := by
  induction cs generalizing before with
  | nil =>
    simp only [splitLastWord?] at h
    split at h
    · next hw =>
      cases h
      simp [hw]
    · cases h
  | cons c rest ih =>
    simp only [splitLastWord?] at h
    split at h
    · next heq =>
      cases h
      simpa using ih heq
    · split at h
      · next hp =>
        cases h
        obtain ⟨tail, ht⟩ := List.isPrefixOf_iff_prefix.1 hp
        rw [← ht]
        simp
      · cases h

end Text
end EventDispatch
