import Mathlib.Data.List.Basic
import Mathlib.Data.List.TakeDrop

/-!
# Fixed-size byte buffers

`Buffer n` is the contents of a `char` array of `n` elements: a list of bytes
together with the proof that there are `n` of them, so that no operation can
make the array grow or shrink.  `storeAt b off bs` overwrites the bytes from
`off` on, and never writes past the end; what a copy into the front of a buffer
does to the bytes in front of and behind a given index is what every result
about a shared receive buffer comes down to.
-/

namespace CppExamples.Lib

/-- The contents of a `char` array of `n` elements. -/
structure Buffer (n : Nat) where
  bytes : List UInt8
  length_eq : bytes.length = n
deriving DecidableEq

namespace Buffer

variable {n : Nat}

@[ext] theorem ext {a b : Buffer n} (h : a.bytes = b.bytes) : a = b := by
  cases a; cases b; cases h; rfl

@[simp] theorem length_bytes (b : Buffer n) : b.bytes.length = n := b.length_eq

/-- `n` copies of one byte: the result of `memset`. -/
def fill (n : Nat) (c : UInt8) : Buffer n := ⟨List.replicate n c, by simp⟩

@[simp] theorem bytes_fill (c : UInt8) : (fill n c).bytes = List.replicate n c := rfl

instance : Inhabited (Buffer n) := ⟨fill n 0⟩

/-- Overwrite the bytes from index `off` on by `src`, cut to the room there is. -/
def storeAt (b : Buffer n) (off : Nat) (src : List UInt8) : Buffer n where
  bytes := b.bytes.take off ++ (src.take (n - off) ++ b.bytes.drop (off + src.length))
  length_eq := by
    simp only [List.length_append, List.length_take, List.length_drop, length_bytes]
    omega

/-- Overwrite the front of the buffer. -/
def store (b : Buffer n) (src : List UInt8) : Buffer n := b.storeAt 0 src

theorem bytes_storeAt (b : Buffer n) (off : Nat) (src : List UInt8) :
    (b.storeAt off src).bytes =
      b.bytes.take off ++ (src.take (n - off) ++ b.bytes.drop (off + src.length)) := rfl

theorem bytes_store (b : Buffer n) (src : List UInt8) :
    (b.store src).bytes = src.take n ++ b.bytes.drop src.length := by
  simp [store, bytes_storeAt]

@[simp] theorem store_nil (b : Buffer n) : b.store [] = b := ext (by simp [bytes_store])

/-- What fits is stored whole. -/
theorem bytes_store_of_le {b : Buffer n} {src : List UInt8} (h : src.length ≤ n) :
    (b.store src).bytes = src ++ b.bytes.drop src.length := by
  rw [bytes_store, List.take_of_length_le h]

/-- The bytes behind the place written to are unchanged. -/
theorem drop_store (b : Buffer n) {k : Nat} {src : List UInt8} (h : src.length ≤ k) :
    (b.store src).bytes.drop k = b.bytes.drop k := by
  rcases Nat.lt_or_ge n k with hk | hk
  · rw [List.drop_eq_nil_of_le (by simp; omega), List.drop_eq_nil_of_le (by simp; omega)]
  · rw [bytes_store_of_le (Nat.le_trans h hk), List.drop_append, List.drop_eq_nil_of_le h,
      List.nil_append, List.drop_drop]
    congr 1
    omega

/-- The front of a buffer after a store into it is the front of what was stored. -/
theorem take_store {b : Buffer n} {k : Nat} {src : List UInt8} (hk : k ≤ src.length)
    (hn : src.length ≤ n) : (b.store src).bytes.take k = src.take k := by
  rw [bytes_store_of_le hn, List.take_append_of_le_length hk]

/-- Reading back exactly what was stored. -/
theorem take_store_length {b : Buffer n} {src : List UInt8} (hn : src.length ≤ n) :
    (b.store src).bytes.take src.length = src := by
  rw [take_store (Nat.le_refl _) hn, List.take_length]

/-- A store over an earlier one leaves the earlier one readable exactly if the
two agree on the bytes both have. -/
theorem take_store_eq_iff {b : Buffer n} {src old : List UInt8} (hn : src.length ≤ n)
    (hold : b.bytes.take old.length = old) :
    (b.store src).bytes.take old.length = old ↔ src <+: old ∨ old <+: src := by
  rcases Nat.le_total old.length src.length with h | h
  · rw [take_store h hn, ← List.prefix_iff_eq_take.trans eq_comm]
    refine ⟨.inr, ?_⟩
    rintro (hp | hp)
    · exact (hp.eq_of_length_le h) ▸ List.prefix_rfl
    · exact hp
  · -- the tail of the earlier store is still there
    have htail : (b.bytes.drop src.length).take (old.length - src.length)
        = old.drop src.length := by
      rw [← List.drop_take, hold]
    rw [bytes_store_of_le hn, List.take_append, List.take_of_length_le h, htail]
    constructor
    · exact fun he ↦ .inl ⟨_, he⟩
    · rintro (⟨t, rfl⟩ | hp)
      · rw [List.drop_left]
      · rw [hp.eq_of_length_le h, List.drop_length, List.append_nil]

/-! ## Single stores

A loop that stores byte after byte does not know where the buffer ends; `putAll`
is `none` if one of its stores is outside. -/

/-- `b[i] = c`, which is undefined outside of the array. -/
def put (b : Buffer n) (i : Nat) (c : UInt8) : Option (Buffer n) :=
  if i < n then some (b.storeAt i [c]) else none

/-- Stores in order, each an index and a byte. -/
def putAll (b : Buffer n) (stores : List (Nat × UInt8)) : Option (Buffer n) :=
  stores.foldlM (fun b s ↦ b.put s.1 s.2) b

theorem putAll_append (b : Buffer n) (l₁ l₂ : List (Nat × UInt8)) :
    b.putAll (l₁ ++ l₂) = (b.putAll l₁).bind (putAll · l₂) := List.foldlM_append

/-- The stores that put `src` at the index `k`. -/
def storesAt (k : Nat) (src : List UInt8) : List (Nat × UInt8) :=
  (src.zipIdx k).map Prod.swap

theorem fst_lt_of_mem_storesAt {k : Nat} {src : List UInt8} {s : Nat × UInt8}
    (h : s ∈ storesAt k src) : s.1 < k + src.length := by
  obtain ⟨⟨c, i⟩, hm, rfl⟩ := List.mem_map.mp h
  rw [Nat.add_comm]
  exact List.snd_lt_of_mem_zipIdx hm

/-- What fits is stored whole. -/
theorem bytes_storeAt_of_le {b : Buffer n} {off : Nat} {src : List UInt8}
    (h : off + src.length ≤ n) : (b.storeAt off src).bytes =
      b.bytes.take off ++ (src ++ b.bytes.drop (off + src.length)) := by
  have hsrc : src.take (n - off) = src := List.take_of_length_le (by omega)
  rw [bytes_storeAt, hsrc]

/-- One byte, and then those behind it. -/
theorem storeAt_cons {b : Buffer n} {k : Nat} {c : UInt8} {src : List UInt8}
    (h : k + (c :: src).length ≤ n) :
    (b.storeAt k [c]).storeAt (k + 1) src = b.storeAt k (c :: src) := by
  rw [List.length_cons] at h
  have hlen : (b.bytes.take k).length = k := by
    rw [List.length_take, length_bytes]
    omega
  have hone : (b.storeAt k [c]).bytes = b.bytes.take k ++ (c :: b.bytes.drop (k + 1)) :=
    bytes_storeAt_of_le (by rw [List.length_singleton]; omega)
  have htake : (b.storeAt k [c]).bytes.take (k + 1) = b.bytes.take k ++ [c] := by
    rw [hone, List.take_append, hlen, Nat.add_sub_cancel_left,
      List.take_of_length_le (l := b.bytes.take k) (by omega)]
    rfl
  have hdrop : (b.storeAt k [c]).bytes.drop (k + 1 + src.length) =
      b.bytes.drop (k + (src.length + 1)) := by
    rw [hone, List.drop_append, hlen, List.drop_eq_nil_of_le (by omega), List.nil_append,
      show k + 1 + src.length - k = src.length + 1 by omega, List.drop_succ_cons, List.drop_drop]
    congr 1
    omega
  refine ext ?_
  rw [bytes_storeAt_of_le (by omega), htake, hdrop,
    bytes_storeAt_of_le (by rw [List.length_cons]; omega), List.append_assoc]
  rfl

/-- Byte after byte is the same as all at once, if there is room. -/
theorem putAll_storesAt {b : Buffer n} {k : Nat} {src : List UInt8} (h : k + src.length ≤ n) :
    b.putAll (storesAt k src) = some (b.storeAt k src) := by
  induction src generalizing b k with
  | nil =>
      refine congrArg some (ext ?_)
      rw [bytes_storeAt, List.take_nil, List.nil_append, List.length_nil, Nat.add_zero,
        List.take_append_drop]
  | cons c src ih =>
      have hput : b.put k c = some (b.storeAt k [c]) := by
        rw [put, if_pos]
        rw [List.length_cons] at h
        omega
      have hrest : (b.storeAt k [c]).putAll (storesAt (k + 1) src) =
          some ((b.storeAt k [c]).storeAt (k + 1) src) := by
        apply ih
        rw [List.length_cons] at h
        omega
      rw [storeAt_cons h] at hrest
      rw [← hrest]
      change (b.put k c).bind _ = _
      rw [hput]
      rfl

/-- A buffer of zeros is zero on every front part of it. -/
theorem take_fill {c : UInt8} {k : Nat} (hk : k ≤ n) :
    (fill n c).bytes.take k = List.replicate k c := by
  rw [bytes_fill, List.take_replicate, Nat.min_eq_left hk]

end Buffer

end CppExamples.Lib
