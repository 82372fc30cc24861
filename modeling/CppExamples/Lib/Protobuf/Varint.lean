import Mathlib.Data.Nat.Basic
import Mathlib.Tactic.Ring

/-!
# Varints and lengths

The base-128 numbers of the protobuf wire format, the least significant group
first; all bytes but the last have the top bit set.  A writer emits at most ten
bytes.  A reader takes at most as many as its type allows, accepts encodings
that are longer than necessary, and drops the bits that do not fit.

`readVarint_varint` is the round trip: a reader that takes enough bytes gets the
number back, and leaves what follows it.
-/

namespace CppExamples.Lib.Protobuf

/-! ## Writing -/

/-- The encoding of `n` in at most `k + 1` bytes. -/
def varintIn : Nat → Nat → List UInt8
  | 0, n => [UInt8.ofNat n]
  | k + 1, n =>
      if n < 128 then [UInt8.ofNat n] else UInt8.ofNat (n % 128 + 128) :: varintIn k (n / 128)

/-- The encoding of a number of at most 64 bits. -/
def varint (n : Nat) : List UInt8 := varintIn 9 n

/-- The number of bytes of an encoding. -/
def varintSize (n : Nat) : Nat := (varint n).length

theorem length_varintIn_le (k n : Nat) : (varintIn k n).length ≤ k + 1 := by
  induction k generalizing n with
  | zero => exact le_rfl
  | succ k ih =>
      rw [varintIn]
      split
      · exact Nat.succ_le_succ (Nat.zero_le _)
      · exact Nat.succ_le_succ (ih _)

theorem varintSize_le (n : Nat) : varintSize n ≤ 10 := length_varintIn_le 9 n

/-! ## Reading -/

/-- Read a varint of at most `k` bytes: its value, and the bytes behind it. -/
def readVarint : Nat → List UInt8 → Option (Nat × List UInt8)
  | 0, _ => none
  | _ + 1, [] => none
  | k + 1, b :: s =>
      if b < 128 then some (b.toNat, s)
      else (readVarint k s).map fun r ↦ (b.toNat - 128 + 128 * r.1, r.2)

/-- `ReadTag` takes at most five bytes and yields 32 bits.  The generated parsers do
not tell it where the bytes end, nor do they look at its result before they dispatch
on the tag.  A tag that is cut off by the end of the bytes is taken to be a failure
all the same, and to be one before the dispatch. -/
def readTag (s : List UInt8) : Option (Nat × List UInt8) :=
  (readVarint 5 s).map fun r ↦ (r.1 % 2 ^ 32, r.2)

/-- `ReadVarint64` takes at most ten bytes. -/
def readVarint64 (s : List UInt8) : Option (BitVec 64 × List UInt8) :=
  (readVarint 10 s).map fun r ↦ (BitVec.ofNat 64 r.1, r.2)

/-- `ReadVarint32` takes ten bytes as well and keeps the low 32 bits. -/
def readVarint32 (s : List UInt8) : Option (BitVec 32 × List UInt8) :=
  (readVarint 10 s).map fun r ↦ (BitVec.ofNat 32 r.1, r.2)

/-- The longest length that a reader accepts: `INT_MAX`, less the 16 bytes that
it may look behind the end of a buffer. -/
def maxSize : Nat := 2 ^ 31 - 1 - 16

/-- `ReadSize` takes at most five bytes. -/
def readSize (s : List UInt8) : Option (Nat × List UInt8) :=
  (readVarint 5 s).filter fun r ↦ r.1 ≤ maxSize

/-! ## The round trip -/

/-- The last byte of an encoding ends the reading. -/
theorem readVarint_last {n : Nat} (hn : n < 128) (k : Nat) (s : List UInt8) :
    readVarint (k + 1) (UInt8.ofNat n :: s) = some (n, s) := by
  have hb : (UInt8.ofNat n).toNat = n := UInt8.toNat_ofNat_of_lt' (show n < 256 by omega)
  have hlt : UInt8.ofNat n < 128 := UInt8.lt_iff_toNat_lt.mpr (hb.trans_lt hn)
  rw [readVarint, if_pos hlt, hb]

/-- Any other byte carries seven bits of the number. -/
theorem readVarint_more (n k : Nat) (s : List UInt8) :
    readVarint (k + 1) (UInt8.ofNat (n % 128 + 128) :: s) =
      (readVarint k s).map fun r ↦ (n % 128 + 128 * r.1, r.2) := by
  have hb : (UInt8.ofNat (n % 128 + 128)).toNat = n % 128 + 128 :=
    UInt8.toNat_ofNat_of_lt' (show n % 128 + 128 < 256 by omega)
  have hge : ¬ UInt8.ofNat (n % 128 + 128) < 128 := fun h ↦ by
    have : n % 128 + 128 < 128 := hb ▸ UInt8.lt_iff_toNat_lt.mp h
    omega
  rw [readVarint, if_neg hge, hb, Nat.add_sub_cancel]

theorem readVarint_varintIn {k l n : Nat} (hn : n < 128 ^ (k + 1)) (hk : k ≤ l)
    (s : List UInt8) : readVarint (k + 1) (varintIn l n ++ s) = some (n, s) := by
  induction l generalizing k n with
  | zero =>
      obtain rfl : k = 0 := by omega
      exact readVarint_last (by simpa using hn) 0 s
  | succ l ih =>
      rw [varintIn]
      split
      · exact readVarint_last ‹_› k s
      · cases k with
        | zero => exact absurd (by simpa using hn) ‹¬ n < 128›
        | succ k =>
            have hdiv : n / 128 < 128 ^ (k + 1) :=
              Nat.div_lt_of_lt_mul (by rwa [← Nat.pow_succ'])
            rw [List.cons_append, readVarint_more, ih hdiv (by omega), Option.map_some,
              Nat.mod_add_div]

/-- A number that needs more bytes is not read. -/
theorem readVarint_varintIn_none {k l n : Nat} (hn : 128 ^ k ≤ n) (hk : k ≤ l)
    (s : List UInt8) : readVarint k (varintIn l n ++ s) = none := by
  induction k generalizing l n with
  | zero => rfl
  | succ k ih =>
      cases l with
      | zero => exact absurd hk (Nat.not_succ_le_zero k)
      | succ l =>
          have hdiv : 128 ^ k ≤ n / 128 := by
            rwa [Nat.le_div_iff_mul_le (by decide), ← Nat.pow_succ]
          have hge : ¬ n < 128 := by
            have := Nat.one_le_pow k 128 (by decide)
            omega
          rw [varintIn, if_neg hge, List.cons_append, readVarint_more, ih hdiv (by omega),
            Option.map_none]

/-- **A reader of enough bytes reads what was written**, and nothing else. -/
theorem readVarint_varint {k n : Nat} (hn : n < 128 ^ (k + 1)) (hk : k ≤ 9) (s : List UInt8) :
    readVarint (k + 1) (varint n ++ s) = some (n, s) := readVarint_varintIn hn hk s

theorem readVarint64_varint (v : BitVec 64) (s : List UInt8) :
    readVarint64 (varint v.toNat ++ s) = some (v, s) := by
  have hn : v.toNat < 128 ^ (9 + 1) := Nat.lt_of_lt_of_le v.isLt (by decide)
  rw [readVarint64, readVarint_varint hn (Nat.le_refl _), Option.map_some, BitVec.ofNat_toNat,
    BitVec.setWidth_eq]

theorem readVarint32_varint (v : BitVec 32) (s : List UInt8) :
    readVarint32 (varint v.toNat ++ s) = some (v, s) := by
  have hn : v.toNat < 128 ^ (9 + 1) := Nat.lt_of_lt_of_le v.isLt (by decide)
  rw [readVarint32, readVarint_varint hn (Nat.le_refl _), Option.map_some, BitVec.ofNat_toNat,
    BitVec.setWidth_eq]

/-- A tag of one byte. -/
theorem readTag_cons {t : Nat} (ht : t < 128) (s : List UInt8) :
    readTag (UInt8.ofNat t :: s) = some (t, s) := by
  rw [readTag, readVarint_last ht, Option.map_some, Nat.mod_eq_of_lt (by omega)]

/-- A length is read back exactly if it is not too long. -/
theorem readSize_varint (n : Nat) (s : List UInt8) :
    readSize (varint n ++ s) = if n ≤ maxSize then some (n, s) else none := by
  by_cases hn : n < 128 ^ 5
  · rw [readSize, readVarint_varint (k := 4) hn (by decide), Option.filter_some]
    simp
  · have hbig : ¬ n ≤ maxSize := fun h ↦ hn (h.trans_lt (by decide))
    rw [readSize, varint, readVarint_varintIn_none (Nat.le_of_not_lt hn) (by decide), if_neg hbig,
      Option.filter_none]

/-! ## Readers consume -/

theorem readVarint_length {k n : Nat} {s rest : List UInt8}
    (h : readVarint k s = some (n, rest)) : rest.length < s.length := by
  induction k generalizing n s with
  | zero => cases h
  | succ k ih =>
      cases s with
      | nil => cases h
      | cons b s =>
          rw [readVarint] at h
          split at h
          · cases h
            exact Nat.lt_succ_self _
          · obtain ⟨r, hr, he⟩ := Option.map_eq_some_iff.mp h
            cases he
            exact (ih hr).trans (Nat.lt_succ_self _)

theorem readTag_length {t : Nat} {s rest : List UInt8} (h : readTag s = some (t, rest)) :
    rest.length < s.length := by
  obtain ⟨r, hr, he⟩ := Option.map_eq_some_iff.mp h
  cases he
  exact readVarint_length hr

/-- A tag has 32 bits. -/
theorem readTag_lt {t : Nat} {s rest : List UInt8} (h : readTag s = some (t, rest)) :
    t < 2 ^ 32 := by
  obtain ⟨r, _, he⟩ := Option.map_eq_some_iff.mp h
  cases he
  exact Nat.mod_lt _ (by decide)

theorem readVarint64_length {v : BitVec 64} {s rest : List UInt8}
    (h : readVarint64 s = some (v, rest)) : rest.length < s.length := by
  obtain ⟨r, hr, he⟩ := Option.map_eq_some_iff.mp h
  cases he
  exact readVarint_length hr

theorem readVarint32_length {v : BitVec 32} {s rest : List UInt8}
    (h : readVarint32 s = some (v, rest)) : rest.length < s.length := by
  obtain ⟨r, hr, he⟩ := Option.map_eq_some_iff.mp h
  cases he
  exact readVarint_length hr

theorem readSize_length {n : Nat} {s rest : List UInt8} (h : readSize s = some (n, rest)) :
    rest.length < s.length :=
  readVarint_length (Option.eq_some_of_filter_eq_some h)

end CppExamples.Lib.Protobuf
