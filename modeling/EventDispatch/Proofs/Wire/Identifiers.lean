import EventDispatch.Event.Uuid
import Mathlib.Tactic.IntervalCases

/-!
# Identifiers are read back

**Input.** The written form of an identifier: 32 hexadecimal digits in five groups.

**Results.** The digits of a word stand for the word (`value_digits`), and the five groups
join to the digits again (`ofGroups?_groups`).  So an identifier is read back from its
written form (`ofText?_text`).
-/

namespace EventDispatch

/-- A digit is read back from its character. -/
theorem Text.hexValue?_digitChar {d : Nat} (h : d < 16) :
    Text.hexValue? (Nat.digitChar d) = some d := by
  interval_cases d <;> rfl

/-- One more digit is one place more. -/
theorem Text.valueIn_concat (base : Nat) (digits : List Nat) (d : Nat) :
    Text.valueIn base (digits ++ [d]) = Text.valueIn base digits * base + d := by
  simp [Text.valueIn, List.foldl_append]

namespace Uuid

@[simp] theorem length_digits (count n : Nat) : (digits count n).length = count := by
  induction count generalizing n with
  | zero => rfl
  | succ count ih => simp [digits, ih]

/-- The digits of a number stand for it, as far as there are places. -/
theorem value_digits (count n : Nat) :
    ∃ values, (digits count n).mapM Text.hexValue? = some values ∧
      Text.valueIn 16 values = n % 16 ^ count := by
  induction count generalizing n with
  | zero => exact ⟨[], rfl, by simp [Text.valueIn, Nat.mod_one]⟩
  | succ count ih =>
    obtain ⟨values, hread, hvalue⟩ := ih (n / 16)
    have hlast : Text.hexValue? (Nat.digitChar (n % 16)) = some (n % 16) :=
      Text.hexValue?_digitChar (Nat.mod_lt _ (by decide))
    refine ⟨values ++ [n % 16], by simp [digits, hread, hlast], ?_⟩
    rw [Text.valueIn_concat, hvalue, Nat.pow_succ', Nat.mod_mul]
    omega

/-- The digits of a word are read as the word. -/
theorem ofDigits?_digits (u : Uuid) : ofDigits? (digits 32 u.word.toNat) = some u := by
  obtain ⟨values, hread, hvalue⟩ := value_digits 32 u.word.toNat
  rw [Nat.mod_eq_of_lt (show u.word.toNat < 16 ^ 32 from u.word.isLt)] at hvalue
  simp [ofDigits?, hread, hvalue]

/-- Five groups joined by hyphens are read as their digits together. -/
theorem ofGroups?_groups {a b c d e : List Char} (ha : a.length = 8) (hb : b.length = 4)
    (hc : c.length = 4) (hd : d.length = 4) (he : e.length = 12) :
    ofGroups? (a ++ '-' :: (b ++ '-' :: (c ++ '-' :: (d ++ '-' :: e)))) =
      ofDigits? (a ++ (b ++ (c ++ (d ++ e)))) := by
  simp [ofGroups?, ha, hb, hc, hd, he, List.drop_append, List.getElem?_append,
    List.drop_of_length_le]

/-- What is cut out of a list at a place, and what follows it. -/
theorem take_drop_append_drop (ds : List Char) (start count : Nat) :
    (ds.drop start).take count ++ ds.drop (start + count) = ds.drop start := by
  rw [← List.drop_drop, List.take_append_drop]

/-- An identifier is read back from its written form. -/
@[simp] theorem ofText?_text (u : Uuid) : ofText? u.text = some u := by
  have hlength := length_digits 32 u.word.toNat
  have hread := ofDigits?_digits u
  unfold text
  generalize digits 32 u.word.toNat = ds at hlength hread
  have hlast : (ds.drop 20).take 12 = ds.drop 20 := List.take_of_length_le (by simp [hlength])
  have hjoin : ds.take 8 ++ ((ds.drop 8).take 4 ++ ((ds.drop 12).take 4 ++
      ((ds.drop 16).take 4 ++ (ds.drop 20).take 12))) = ds := by
    rw [hlast, take_drop_append_drop ds 16 4, take_drop_append_drop ds 12 4,
      take_drop_append_drop ds 8 4, List.take_append_drop]
  have hgroups := ofGroups?_groups (a := ds.take 8) (b := (ds.drop 8).take 4)
    (c := (ds.drop 12).take 4) (d := (ds.drop 16).take 4) (e := (ds.drop 20).take 12)
    (by simp [hlength]) (by simp [hlength]) (by simp [hlength]) (by simp [hlength])
    (by simp [hlength])
  rw [hjoin, hread] at hgroups
  simpa [ofText?, hlength] using hgroups

end Uuid
end EventDispatch
