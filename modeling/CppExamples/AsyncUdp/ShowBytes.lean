import CppExamples.AsyncUdp.Show

/-!
# What the two renderings tell

`show_hex` renders every byte as a group of its own, two digits and a blank, so
that the bytes can be read back.  `show_str` appends every byte as a C string of
its own; the string of the byte zero is empty, so the zeros of a buffer are not
in its `show_str`.

The two renderings describe the same bytes exactly if there is no zero among
them.
-/

namespace CppExamples.AsyncUdp

open CppExamples.Lib

/-! ## Reading the groups -/

/-- The value of an upper-case hexadecimal digit. -/
def hexValue (c : UInt8) : Option Nat :=
  if 48 ≤ c ∧ c ≤ 57 then some (c.toNat - 48)
  else if 65 ≤ c ∧ c ≤ 70 then some (c.toNat - 55)
  else none

/-- The byte of one group: two upper-case digits and a blank. -/
def readGroup : List UInt8 → Option UInt8
  | [a, b, 32] => do
      let high ← hexValue a
      let low ← hexValue b
      some (UInt8.ofNat (16 * high + low))
  | _ => none

/-- The bytes of a text that consists of groups. -/
def readHex (n : Nat) (text : List UInt8) : Option (List UInt8) :=
  match n with
  | 0 => if text = [] then some [] else none
  | n + 1 => do
      let c ← readGroup (text.take 3)
      let rest ← readHex n (text.drop 3)
      some (c :: rest)

theorem hexValue_hexDigit {d : Nat} (h : d < 16) : hexValue (hexDigit d) = some d := by
  revert d
  decide

/-! ## One byte -/

/-- `show_str` leaves out the zero, and nothing else. -/
theorem showChar_eq (c : UInt8) : showChar c = if c = 0 then [] else [c] := by
  rw [showChar, cstr]
  split
  · rename_i h
    rw [h]
    rfl
  · rename_i h
    simp [h]

/-- The sign of a `char` is gone after the mask. -/
theorem unsignedOfChar_and (c : UInt8) : unsignedOfChar c &&& 0xFF = c.toNat := by
  have hlt : c.toNat < 256 := c.toNat_lt
  have hmod : unsignedOfChar c &&& 0xFF = unsignedOfChar c % 2 ^ 8 :=
    Nat.and_two_pow_sub_one_eq_mod _ 8
  have hint : c.toInt8.toInt = if 2 * c.toNat < 256 then (c.toNat : Int) else c.toNat - 256 :=
    BitVec.toInt_eq_toNat_cond c.toBitVec
  rw [hmod, unsignedOfChar, hint]
  split <;> omega

/-- A number below 256 takes two digits. -/
theorem formatHex_two {v : Nat} (h : v < 256) :
    formatHex 2 v = [hexDigit (v / 16), hexDigit (v % 16)] := by
  rcases Nat.eq_zero_or_pos v with rfl | hpos
  · decide
  · rw [formatHex, Nat.digits_def' (by decide) hpos]
    rcases Nat.eq_zero_or_pos (v / 16) with hz | hz
    · rw [hz, Nat.digits_zero]
      rfl
    · have hone : v / 16 < 16 := by omega
      rw [Nat.digits_def' (by decide) hz, Nat.mod_eq_of_lt hone, Nat.div_eq_of_lt hone,
        Nat.digits_zero]
      rfl

theorem hexDigit_ne_zero {d : Nat} (h : d < 16) : hexDigit d ≠ 0 := by
  revert d
  decide

/-- The group of a byte. -/
theorem showHexChar_eq (c : UInt8) :
    showHexChar c = [hexDigit (c.toNat / 16), hexDigit (c.toNat % 16), 32] := by
  have hlt : c.toNat < 256 := c.toNat_lt
  have hhigh : hexDigit (c.toNat / 16) ≠ 0 := hexDigit_ne_zero (by omega)
  have hlow : hexDigit (c.toNat % 16) ≠ 0 := hexDigit_ne_zero (by omega)
  rw [showHexChar, unsignedOfChar_and, formatHex_two hlt]
  apply cstr_append_zero (s := [hexDigit (c.toNat / 16), hexDigit (c.toNat % 16), 32]) _ []
  intro d hd
  simp only [List.mem_cons, List.not_mem_nil, or_false] at hd
  rcases hd with rfl | rfl | rfl
  · exact hhigh
  · exact hlow
  · decide

/-- A group is read back. -/
theorem readGroup_showHexChar (c : UInt8) : readGroup (showHexChar c) = some c := by
  have hlt : c.toNat < 256 := c.toNat_lt
  have hsum : 16 * (c.toNat / 16) + c.toNat % 16 = c.toNat := Nat.div_add_mod _ _
  rw [showHexChar_eq, readGroup, hexValue_hexDigit (by omega), hexValue_hexDigit (by omega)]
  simp only [Option.bind_eq_bind, Option.bind_some, hsum, UInt8.ofNat_toNat]

/-! ## All the bytes -/

variable {data : List UInt8}

theorem showStr_eq_filter (data : List UInt8) : showStr data = data.filter (· ≠ 0) := by
  induction data with
  | nil => rfl
  | cons c data ih =>
      rw [showStr, List.flatMap_cons, showChar_eq, ← showStr, ih, List.filter_cons]
      by_cases hc : c = 0
      · simp [hc]
      · simp [hc]

theorem showStr_eq_self_iff : showStr data = data ↔ ∀ c ∈ data, c ≠ 0 := by
  rw [showStr_eq_filter, List.filter_eq_self]
  simp

theorem length_showHexChar (c : UInt8) : (showHexChar c).length = 3 := by
  rw [showHexChar_eq]
  rfl

theorem length_showHex (data : List UInt8) : (showHex data).length = 3 * data.length := by
  induction data with
  | nil => rfl
  | cons c data ih =>
      rw [showHex, List.flatMap_cons, List.length_append, ← showHex, ih, length_showHexChar,
        List.length_cons]
      omega

/-- **The groups are read back**, whatever the bytes are. -/
theorem readHex_showHex (data : List UInt8) : readHex data.length (showHex data) = some data := by
  induction data with
  | nil => rfl
  | cons c data ih =>
      have hlen := length_showHexChar c
      have htake : (showHex (c :: data)).take 3 = showHexChar c := by
        rw [showHex, List.flatMap_cons, ← hlen, List.take_left]
      have hdrop : (showHex (c :: data)).drop 3 = showHex data := by
        rw [showHex, List.flatMap_cons, ← hlen, List.drop_left]
        rfl
      rw [List.length_cons, readHex, htake, hdrop, readGroup_showHexChar, ih]
      rfl

theorem showHex_inj {a b : List UInt8} : showHex a = showHex b ↔ a = b := by
  constructor
  · intro h
    have hlen : 3 * a.length = 3 * b.length := by
      rw [← length_showHex, h, length_showHex]
    have hread := readHex_showHex a
    rw [h, Nat.eq_of_mul_eq_mul_left (by decide) hlen, readHex_showHex b] at hread
    exact (Option.some.inj hread).symm
  · rintro rfl
    rfl

/-- What a log with both renderings is meant to tell about a buffer. -/
structure Rendered (data : List UInt8) : Prop where
  str : showStr data = data
  length : (showHex data).length = 3 * data.length
  groups : ∃ groups : List (List UInt8), groups.length = data.length ∧
    showHex data = groups.flatten ∧ ∀ g ∈ groups, ∃ c, readGroup g = some c
  read : readHex data.length (showHex data) = some (showStr data)

/-- **The two renderings describe the same bytes exactly if none of them is zero.**
Different buffers have different `show_hex`; they have different `show_str`
exactly if they differ in more than their zeros. -/
theorem rendered_iff (data a b : List UInt8) :
    (Rendered data ↔ ∀ c ∈ data, c ≠ 0) ∧ (showHex a = showHex b ↔ a = b) ∧
      (showStr a = showStr b ↔ a.filter (· ≠ 0) = b.filter (· ≠ 0)) := by
  refine ⟨⟨?_, ?_⟩, showHex_inj, ?_⟩
  · intro h
    exact showStr_eq_self_iff.mp h.str
  · intro h
    have hstr : showStr data = data := showStr_eq_self_iff.mpr h
    refine ⟨hstr, length_showHex data, ⟨data.map showHexChar, ?_, ?_, ?_⟩, ?_⟩
    · rw [List.length_map]
    · rw [showHex, List.flatMap_def]
    · intro g hg
      obtain ⟨c, -, rfl⟩ := List.mem_map.mp hg
      exact ⟨c, readGroup_showHexChar c⟩
    · rw [hstr]
      exact readHex_showHex data
  · rw [showStr_eq_filter, showStr_eq_filter]

/-- A zero is shown as a group, and as nothing. -/
theorem zero_not_rendered :
    ¬ ((∀ data, Rendered data) ∧ ∀ a b, showStr a = showStr b → a = b) := by
  rintro ⟨h, -⟩
  have := (h [0]).str
  cases this

end CppExamples.AsyncUdp
