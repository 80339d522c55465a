import EventDispatch.Api.Serve
import EventDispatch.Proofs.Wire.Identifiers
import Mathlib.Data.List.TakeWhile

/-!
# Addresses are read back

**Input.** The target of a request as a client writes it: a path with any text as one of its
parts, and a query with a number.

**Rule.** A part of a path stands for a text if it decodes to the text and none of its
characters ends the part (`Target.Spells`).

**Results.** Every text can be written as a part of a path (`Target.exists_spells`), and the
part is read from the path again (`Route.ofPath?_ownerEvents`).  A number of 64 bits is read from
its decimal digits (`Text.integer?_toString`), also as the limit of a query
(`ListQuery.ofQuery?_limit`).
-/

namespace EventDispatch

/-! ## Parts -/

namespace Text

theorem splitOn_of_notMem {separator : Char} {cs : List Char} (h : separator ∉ cs) :
    splitOn separator cs = [cs] := by
  induction cs with
  | nil => rfl
  | cons c rest ih =>
    obtain ⟨hne, hrest⟩ := List.ne_and_not_mem_of_not_mem_cons h
    simp only [splitOn, if_neg (Ne.symm hne), ih hrest]

/-- A part is cut off at the separator behind it. -/
theorem splitOn_append_cons {separator : Char} {part : List Char} (h : separator ∉ part)
    (rest : List Char) :
    splitOn separator (part ++ separator :: rest) = part :: splitOn separator rest := by
  induction part with
  | nil => simp [splitOn]
  | cons c part ih =>
    obtain ⟨hne, hpart⟩ := List.ne_and_not_mem_of_not_mem_cons h
    simp only [List.cons_append, splitOn, if_neg (Ne.symm hne), ih hpart]

theorem splitFirst?_append_cons {separator : Char} {before : List Char} (h : separator ∉ before)
    (after : List Char) :
    splitFirst? separator (before ++ separator :: after) = some (before, after) := by
  induction before with
  | nil => simp [splitFirst?]
  | cons c before ih =>
    obtain ⟨hne, hbefore⟩ := List.ne_and_not_mem_of_not_mem_cons h
    simp only [List.cons_append, splitFirst?, if_neg (Ne.symm hne), ih hbefore, Option.map_some]

/-! ## Numbers -/

theorem notMem_toDigits {c : Char} (h : c.isDigit = false) (n : Nat) : c ∉ Nat.toDigits 10 n := by
  intro hmem
  have hdigit := Nat.isDigit_of_mem_toDigits (by decide) (by decide) hmem
  rw [h] at hdigit
  cases hdigit

theorem valueIn_toDigits (n : Nat) : valueIn 10 ((Nat.toDigits 10 n).map digitValue) = n := by
  have hstep : (fun m c => m * 10 + digitValue c) =
      fun m (c : Char) => 10 * m + (c.toNat - '0'.toNat) :=
    funext fun m => funext fun c => congrArg (· + digitValue c) (Nat.mul_comm m 10)
  rw [valueIn, List.foldl_map, hstep, ← Nat.ofDigitChars_eq_foldl, Nat.ofDigitChars_ten_toDigits]

theorem natural?_toDigits (n : Nat) : natural? (Nat.toDigits 10 n) = some n := by
  have hdigits : (Nat.toDigits 10 n).all Char.isDigit = true :=
    List.all_eq_true.2 fun _ hc => Nat.isDigit_of_mem_toDigits (by decide) (by decide) hc
  rw [natural?, if_pos ⟨Nat.toDigits_ne_nil, hdigits⟩, valueIn_toDigits]

/-- Digits without a sign are read as a number that is not negative. -/
theorem integer?_toDigits {least greatest : Int} {n : Nat} (hleast : least ≤ n)
    (hgreatest : n ≤ greatest) :
    integer? least greatest (Nat.toDigits 10 n) = some (n : Int) := by
  unfold integer?
  split
  · next hsign =>
    exact absurd (hsign ▸ List.mem_cons_self) (notMem_toDigits (c := '-') rfl n)
  · next hsign =>
    exact absurd (hsign ▸ List.mem_cons_self) (notMem_toDigits (c := '+') rfl n)
  · simp only [natural?_toDigits, Option.bind_some, if_pos (And.intro hleast hgreatest)]

/-- An integer between the bounds is read from its decimal digits. -/
theorem integer?_toString {least greatest n : Int} (hleast : least ≤ n) (hgreatest : n ≤ greatest) :
    integer? least greatest (toString n).toList = some n := by
  rw [Int.toString_eq_repr, Int.repr_eq_if]
  split
  · next hsign =>
    obtain ⟨m, rfl⟩ := Int.eq_ofNat_of_zero_le hsign
    rw [Int.toNat_natCast, Nat.toList_repr, integer?_toDigits hleast hgreatest]
  · next hsign =>
    have hsize : -((-n).toNat : Int) = n := by omega
    have htext : ("-" ++ (-n).toNat.repr).toList = '-' :: Nat.toDigits 10 (-n).toNat := by simp
    simp only [htext, integer?, natural?_toDigits, Option.bind_some, hsize,
      if_pos (And.intro hleast hgreatest)]

/-- No digits and no sign are among the characters. -/
theorem notMem_toString {c : Char} (hdigit : c.isDigit = false) (hsign : c ≠ '-') (n : Int) :
    c ∉ (toString n).toList := by
  rw [Int.toString_eq_repr, Int.repr_eq_if]
  split
  · rw [Nat.toList_repr]
    exact notMem_toDigits hdigit _
  · simpa [hsign] using notMem_toDigits hdigit _

end Text

/-! ## Percent signs -/

namespace Target

theorem percentBytes_cons {c : Char} (h : c ≠ '%') (rest : List Char) :
    percentBytes (c :: rest) = String.utf8EncodeChar c ++ percentBytes rest := by
  rw [percentBytes]
  rintro - - - rfl
  exact absurd rfl h

theorem percentBytes_of_notMem {cs : List Char} (h : '%' ∉ cs) :
    percentBytes cs = cs.flatMap String.utf8EncodeChar := by
  induction cs with
  | nil => rfl
  | cons c rest ih =>
    obtain ⟨hne, hrest⟩ := List.ne_and_not_mem_of_not_mem_cons h
    rw [percentBytes_cons (Ne.symm hne), ih hrest, List.flatMap_cons]

/-- The bytes of a text are read as the text. -/
theorem fromUTF8?_flatMap (cs : List Char) :
    String.fromUTF8? ⟨(cs.flatMap String.utf8EncodeChar).toArray⟩ = some (String.ofList cs) := by
  have hbytes : ByteArray.mk (cs.flatMap String.utf8EncodeChar).toArray = cs.utf8Encode :=
    ByteArray.ext List.data_toByteArray.symm
  rw [hbytes, String.fromUTF8?, dif_pos ByteArray.isValidUTF8_utf8Encode]
  rfl

/-- Text without percent signs stands for itself. -/
theorem percentDecode?_of_notMem {cs : List Char} (h : '%' ∉ cs) :
    percentDecode? cs = some (String.ofList cs) := by
  rw [percentDecode?, percentBytes_of_notMem h, fromUTF8?_flatMap]

/-- A byte as a percent sign and two digits. -/
def percentDigits (b : UInt8) : List Char :=
  ['%', Nat.digitChar (b.toNat / 16), Nat.digitChar (b.toNat % 16)]

theorem percentBytes_percentDigits (b : UInt8) (rest : List Char) :
    percentBytes (percentDigits b ++ rest) = b :: percentBytes rest := by
  have hbyte := b.toNat_lt
  have hhigh := Text.hexValue?_digitChar (d := b.toNat / 16) (by omega)
  have hlow := Text.hexValue?_digitChar (d := b.toNat % 16) (by omega)
  have hvalue : b.toNat / 16 * 16 + b.toNat % 16 = b.toNat := by omega
  simp only [percentDigits, List.cons_append, List.nil_append, percentBytes, hhigh, hlow, hvalue,
    UInt8.ofNat_toNat]

theorem percentBytes_flatMap (bytes : List UInt8) :
    percentBytes (bytes.flatMap percentDigits) = bytes := by
  induction bytes with
  | nil => rfl
  | cons b rest ih => rw [List.flatMap_cons, percentBytes_percentDigits, ih]

/-- A part of a path that stands for a text: it decodes to the text, and no character of it
ends the part. -/
structure Spells (part : List Char) (text : String) : Prop where
  decodes : percentDecode? part = some text
  slash : '/' ∉ part
  question : '?' ∉ part
  hash : '#' ∉ part

theorem notMem_percentDigits {c : Char} (hsign : c ≠ '%')
    (hdigit : Text.hexValue? c = none) (bytes : List UInt8) :
    c ∉ bytes.flatMap percentDigits := by
  intro hmem
  obtain ⟨b, -, hc⟩ := List.mem_flatMap.1 hmem
  have hbyte := b.toNat_lt
  have hread : ∀ d < 16, c ≠ Nat.digitChar d := by
    rintro d hd rfl
    rw [Text.hexValue?_digitChar hd] at hdigit
    cases hdigit
  simp only [percentDigits, List.mem_cons, List.not_mem_nil, or_false] at hc
  rcases hc with hc | hc | hc
  · exact hsign hc
  · exact hread _ (by omega) hc
  · exact hread _ (by omega) hc

/-- Every text can be written as a part of a path. -/
theorem exists_spells (text : String) : ∃ part, Spells part text := by
  refine ⟨(text.toList.flatMap String.utf8EncodeChar).flatMap percentDigits, ?_,
    notMem_percentDigits (by decide) rfl _, notMem_percentDigits (by decide) rfl _,
    notMem_percentDigits (by decide) rfl _⟩
  rw [percentDecode?, percentBytes_flatMap, fromUTF8?_flatMap, String.ofList_toList]

/-! ## Targets -/

theorem formDecode?_of_notMem {cs : List Char} (hpercent : '%' ∉ cs) (hplus : '+' ∉ cs) :
    formDecode? cs = some (String.ofList cs) := by
  have hsame : cs.map (fun c => if c = '+' then ' ' else c) = cs := by
    conv_rhs => rw [← List.map_id cs]
    refine List.map_congr_left fun c hc => if_neg ?_
    rintro rfl
    exact hplus hc
  rw [formDecode?, hsame, percentDecode?_of_notMem hpercent]

/-- A target is cut at its question mark. -/
theorem ofText_of_toList {text : String} {path query : List Char}
    (htext : text.toList = path ++ '?' :: query) (hroot : path.head? = some '/')
    (hquestion : '?' ∉ path) (hhash : '#' ∉ path) (hquery : '#' ∉ query) :
    ofText text = ⟨path, query⟩ := by
  have hsent : text.toList.takeWhile (· ≠ '#') = path ++ '?' :: query := by
    rw [htext]
    refine List.takeWhile_eq_self_iff.2 fun c hc => decide_eq_true ?_
    rintro rfl
    rcases List.mem_append.1 hc with hc | hc
    · exact hhash hc
    · exact hquery (List.mem_of_ne_of_mem (by decide) hc)
  have hhost : withoutHost (path ++ '?' :: query) = path ++ '?' :: query := by
    obtain ⟨rest, rfl⟩ := List.head?_eq_some_iff.1 hroot
    rfl
  simp only [ofText, hsent, hhost, Text.splitFirst?_append_cons hquestion]

end Target

/-- A limit of 64 bits is read from its decimal digits. -/
theorem ListQuery.ofQuery?_limit {n : Int} (hleast : leastInt64 ≤ n)
    (hgreatest : n ≤ greatestInt64) :
    ofQuery? ("limit=".toList ++ (toString n).toList) = some ⟨n⟩ := by
  have hvalue := Target.formDecode?_of_notMem (Text.notMem_toString (c := '%') rfl (by decide) n)
    (Text.notMem_toString (c := '+') rfl (by decide) n)
  have hname : Target.formDecode? "limit".toList = some "limit" :=
    Target.formDecode?_of_notMem (by decide) (by decide)
  have hpart : Text.splitOn '&' ("limit=".toList ++ (toString n).toList) =
      ["limit=".toList ++ (toString n).toList] := by
    refine Text.splitOn_of_notMem fun hmem => ?_
    rcases List.mem_append.1 hmem with hmem | hmem
    · revert hmem
      decide
    · exact Text.notMem_toString rfl (by decide) n hmem
  have hequals : '=' ∉ "limit".toList := by decide
  have hcut : Text.splitFirst? '=' ("limit=".toList ++ (toString n).toList) =
      some ("limit".toList, (toString n).toList) :=
    Text.splitFirst?_append_cons hequals _
  have hpairs : Target.queryPairs ("limit=".toList ++ (toString n).toList) =
      [(some "limit", some (toString n))] := by
    rw [Target.queryPairs, hpart, List.filter_cons_of_pos (by simp)]
    simp only [List.filter_nil, List.map_cons, List.map_nil, hcut, hname, hvalue,
      String.ofList_toList]
  have hread := Text.integer?_toString hleast hgreatest
  simp only [ofQuery?, hpairs, decide_true, List.filter_cons_of_pos, List.filter_nil, hread,
    Option.map_some]

/-- The events of an owner stand under the part that spells the owner. -/
theorem Route.ofPath?_ownerEvents {part : List Char} (h : '/' ∉ part) :
    ofPath? ("/owners/".toList ++ part ++ "/events".toList) = some (.ownerEvents part) := by
  have hparts : Text.splitOn '/' ("/owners/".toList ++ part ++ "/events".toList) =
      [[], "owners".toList, part, "events".toList] := by
    calc Text.splitOn '/' ("/owners/".toList ++ part ++ "/events".toList)
        = Text.splitOn '/' ([] ++ '/' :: ("owners".toList ++ '/' ::
            (part ++ '/' :: "events".toList))) := by simp
      _ = [[], "owners".toList, part, "events".toList] := by
        rw [Text.splitOn_append_cons (by decide), Text.splitOn_append_cons (by decide),
          Text.splitOn_append_cons h, Text.splitOn_of_notMem (by decide)]
  rw [ofPath?, hparts]
  rfl

end EventDispatch
