import Mathlib.Data.List.TakeWhile
import Mathlib.Data.Nat.Digits.Lemmas

/-!
# The C string routines

Byte-level models of the routines of `<cstring>`, `<cstdlib>` and `<cstdio>`
that code working on `char` buffers uses.  A string argument is the contents of
the memory it points to, from the first character on; where the routine stops
at a NUL, so does its model.

* `cstr` is the C string at an address: the bytes in front of the first NUL.
* `strncat` appends a string of bounded length and terminates the result.
* `atoi` skips white space, reads an optional sign and as many digits as there
  are, and yields `0` where there are none and the nearest `int` where the
  number does not fit one.
* `sprintfD` is `sprintf` with the format `%<width>d`; `formatHex` is `%0<width>X`.

The point of the file is `atoi_sprintfD`: the two conversions are inverse to
each other on the non-negative numbers, whatever the padding.
-/

namespace CppExamples.Lib

/-- The C string at an address: what is in front of the first NUL. -/
def cstr (s : List UInt8) : List UInt8 := s.takeWhile (· ≠ 0)

/-- A string without NULs is read up to the NUL behind it. -/
theorem cstr_append_zero {s : List UInt8} (hs : ∀ c ∈ s, c ≠ 0) (t : List UInt8) :
    cstr (s ++ 0 :: t) = s := by
  rw [cstr, List.takeWhile_append_of_pos (by simpa using hs)]
  simp

/-- A string is read up to its own first NUL, or else up to the NUL behind it. -/
theorem cstr_append_cons_zero (s t : List UInt8) : cstr (s ++ 0 :: t) = cstr s := by
  induction s with
  | nil => rfl
  | cons c s ih =>
      simp only [cstr, List.cons_append, List.takeWhile_cons] at ih ⊢
      split
      · rw [ih]
      · rfl

/-- The whole of a string is a C string if there is no NUL in it. -/
theorem cstr_eq_self_iff {s : List UInt8} : cstr s = s ↔ ∀ c ∈ s, c ≠ 0 := by
  simp [cstr, List.takeWhile_eq_self_iff]

/-- A C string has no NULs in it. -/
theorem ne_zero_of_mem_cstr {s : List UInt8} {c : UInt8} (h : c ∈ cstr s) : c ≠ 0 := by
  simpa using List.mem_takeWhile_imp h

/-- `strncat(dst, src, n)`: what `dst` holds afterwards. -/
def strncat (dst src : List UInt8) (n : Nat) : List UInt8 :=
  let head := cstr dst ++ cstr (src.take n)
  head ++ 0 :: dst.drop (head.length + 1)

/-- The string `strncat` builds. -/
theorem cstr_strncat (dst src : List UInt8) (n : Nat) :
    cstr (strncat dst src n) = cstr dst ++ cstr (src.take n) := by
  refine cstr_append_zero (fun c hc ↦ ?_) _
  rcases List.mem_append.mp hc with h | h <;> exact ne_zero_of_mem_cstr h

/-! ## Reading a number -/

def isspace (c : UInt8) : Bool := c = 32 || (9 ≤ c && c ≤ 13)

def isdigit (c : UInt8) : Bool := 48 ≤ c && c ≤ 57

/-- The number a list of digits stands for, the most significant one first. -/
def digitsValue (ds : List UInt8) : Nat := ds.foldl (fun v c ↦ 10 * v + (c.toNat - 48)) 0

/-- The largest and the smallest `int`. -/
def intMax : Int := 2147483647
def intMin : Int := -2147483648

/-- The nearest `int`. -/
def clampInt (v : Int) : Int := max intMin (min v intMax)

theorem clampInt_of_mem {v : Int} (h₁ : intMin ≤ v) (h₂ : v ≤ intMax) : clampInt v = v := by
  rw [clampInt, min_eq_left h₂, max_eq_right h₁]

/-- Split off an optional sign; `true` is a minus. -/
def readSign : List UInt8 → Bool × List UInt8
  | 45 :: s => (true, s)
  | 43 :: s => (false, s)
  | s => (false, s)

/-- `atoi`. -/
def atoi (s : List UInt8) : Int :=
  let signed := readSign ((cstr s).dropWhile isspace)
  let v : Int := digitsValue (signed.2.takeWhile isdigit)
  clampInt (if signed.1 then -v else v)

/-- `atoi` sees the C string and nothing behind it. -/
theorem atoi_congr {s t : List UInt8} (h : cstr s = cstr t) : atoi s = atoi t := by
  rw [atoi, atoi, h]

/-! ## What a number looks like -/

/-- A sign or none, and whether it is a minus. -/
inductive Sign : List UInt8 → Bool → Prop where
  | absent : Sign [] false
  | plus : Sign [43] false
  | minus : Sign [45] true

/-- `Numeral s v`: the text `s` begins with a number, which is `v`.  A number is
white space, a sign or none, and all the digits that follow, at least one. -/
inductive Numeral : List UInt8 → Int → Prop where
  | mk {space sign digits rest : List UInt8} {negative : Bool}
      (hspace : ∀ c ∈ space, isspace c = true) (hsign : Sign sign negative)
      (hne : digits ≠ []) (hdigits : ∀ c ∈ digits, isdigit c = true)
      (hrest : ∀ c t, rest = c :: t → isdigit c = false) :
      Numeral (space ++ (sign ++ (digits ++ rest)))
        (if negative then -(digitsValue digits : Int) else digitsValue digits)

theorem not_isspace_of_isdigit {c : UInt8} (h : isdigit c = true) : isspace c = false := by
  simp only [isdigit, Bool.and_eq_true, decide_eq_true_eq, UInt8.le_iff_toNat_le] at h
  have h48 : (48 : UInt8).toNat = 48 := rfl
  simp only [isspace, Bool.or_eq_false_iff, Bool.and_eq_false_iff, decide_eq_false_iff_not,
    UInt8.le_iff_toNat_le, ← UInt8.toNat_inj]
  exact ⟨by simp; omega, .inr (by simp; omega)⟩

/-- An unsigned number is read without a sign. -/
theorem readSign_of_isdigit {c : UInt8} (h : isdigit c = true) (s : List UInt8) :
    readSign (c :: s) = (false, c :: s) := by
  unfold readSign
  split
  · rename_i he
    cases he
    exact absurd h (by decide)
  · rename_i he
    cases he
    exact absurd h (by decide)
  · rfl

/-- White space in front of something else is skipped, and nothing more. -/
theorem dropWhile_isspace_append {space t : List UInt8} (h : ∀ c ∈ space, isspace c = true)
    (ht : ∀ c u, t = c :: u → isspace c = false) : (space ++ t).dropWhile isspace = t := by
  rw [List.dropWhile_append_of_pos h]
  cases t with
  | nil => rfl
  | cons c u => rw [List.dropWhile_cons_of_neg (by simp [ht c u rfl])]

/-- **`atoi` reads the number** that the text begins with, as near as an `int` can
come to it. -/
theorem atoi_of_numeral {s : List UInt8} {v : Int} (h : Numeral (cstr s) v) :
    atoi s = clampInt v := by
  generalize htext : cstr s = text at h
  obtain @⟨space, sign, digits, rest, negative, hspace, hsign, hne, hdigits, hrest⟩ := h
  obtain ⟨d, ds, rfl⟩ := List.exists_cons_of_ne_nil hne
  have hd : isdigit d = true := hdigits d (List.mem_cons_self ..)
  have hskip : (cstr s).dropWhile isspace = sign ++ (d :: ds ++ rest) := by
    rw [htext]
    apply dropWhile_isspace_append hspace
    intro c u hc
    cases hsign with
    | absent =>
        cases hc
        exact not_isspace_of_isdigit hd
    | plus => cases hc; rfl
    | minus => cases hc; rfl
  have hread : readSign (sign ++ (d :: ds ++ rest)) = (negative, d :: ds ++ rest) := by
    cases hsign with
    | absent => exact readSign_of_isdigit hd _
    | plus => rfl
    | minus => rfl
  have htake : (d :: ds ++ rest).takeWhile isdigit = d :: ds := by
    rw [List.takeWhile_append_of_pos hdigits]
    cases rest with
    | nil => simp
    | cons c t => rw [List.takeWhile_cons_of_neg (by simp [hrest c t rfl]), List.append_nil]
  simp only [atoi, hskip, hread, htake]

theorem exists_sign (t : List UInt8) :
    ∃ sign, Sign sign (readSign t).1 ∧ t = sign ++ (readSign t).2 := by
  unfold readSign
  split
  · exact ⟨[45], .minus, rfl⟩
  · exact ⟨[43], .plus, rfl⟩
  · exact ⟨[], .absent, rfl⟩

/-- **Without a number `atoi` yields zero.** -/
theorem atoi_of_not_numeral {s : List UInt8} (h : ∀ v, ¬ Numeral (cstr s) v) : atoi s = 0 := by
  obtain ⟨sign, hsign, htext⟩ := exists_sign ((cstr s).dropWhile isspace)
  have hstop (c : UInt8) (t : List UInt8)
      (ht : (readSign ((cstr s).dropWhile isspace)).2.dropWhile isdigit = c :: t) :
      isdigit c = false := by
    have hhead := List.head_dropWhile_not isdigit (by rw [ht]; exact List.cons_ne_nil c t)
    simpa [ht] using hhead
  have hnone : (readSign ((cstr s).dropWhile isspace)).2.takeWhile isdigit = [] := by
    by_contra hne
    have hnum := Numeral.mk (fun c hc ↦ List.mem_takeWhile_imp (l := cstr s) hc) hsign hne
      (fun c hc ↦ List.mem_takeWhile_imp hc) hstop
    rw [List.takeWhile_append_dropWhile, ← htext, List.takeWhile_append_dropWhile] at hnum
    exact h _ hnum
  have hzero : clampInt (if (readSign ((cstr s).dropWhile isspace)).1 = true then
      -(digitsValue [] : Int) else digitsValue []) = 0 := by
    split <;> rfl
  rw [atoi, hnone]
  exact hzero

/-! ## Writing a number -/

/-- The digits of a number, the most significant one first. -/
def decimal (n : Nat) : List UInt8 :=
  (if n = 0 then [0] else (Nat.digits 10 n).reverse).map fun d ↦ UInt8.ofNat (48 + d)

/-- What `%d` prints. -/
def formatInt (v : Int) : List UInt8 :=
  if v < 0 then 45 :: decimal v.natAbs else decimal v.natAbs

/-- What `sprintf(s, "%<width>d", v)` stores, the terminating NUL included. -/
def sprintfD (width : Nat) (v : Int) : List UInt8 :=
  (formatInt v).leftpad width 32 ++ [0]

/-- An upper-case hexadecimal digit. -/
def hexDigit (d : Nat) : UInt8 := UInt8.ofNat (if d < 10 then 48 + d else 55 + d)

/-- What `sprintf(s, "%0<width>X", v)` stores, less the terminating NUL. -/
def formatHex (width : Nat) (v : Nat) : List UInt8 :=
  ((Nat.digits 16 v).reverse.map hexDigit).leftpad width 48

/-! ## Reading back what was written -/

theorem isdigit_ofNat {d : Nat} (h : d < 10) : isdigit (UInt8.ofNat (48 + d)) = true := by
  revert d
  decide

theorem isdigit_ne_zero {c : UInt8} (h : isdigit c = true) : c ≠ 0 := by
  rintro rfl
  exact absurd h (by decide)

/-- Every digit of a number is below ten. -/
theorem digit_lt {n d : Nat} (h : d ∈ (if n = 0 then [0] else (Nat.digits 10 n).reverse)) :
    d < 10 := by
  split at h
  · simp only [List.mem_singleton] at h
    omega
  · exact Nat.digits_lt_base (by decide) (List.mem_reverse.mp h)

theorem decimal_isdigit {n : Nat} {c : UInt8} (h : c ∈ decimal n) : isdigit c = true := by
  obtain ⟨d, hd, rfl⟩ := List.mem_map.mp h
  exact isdigit_ofNat (digit_lt hd)

theorem decimal_ne_nil (n : Nat) : decimal n ≠ [] := by
  rw [decimal]
  split
  · simp
  · rename_i h
    simpa [Nat.digits_ne_nil_iff_ne_zero] using h

/-- The last digit is the remainder. -/
theorem getLast?_decimal (n : Nat) : (decimal n).getLast? = some (UInt8.ofNat (48 + n % 10)) := by
  rw [decimal, List.getLast?_map]
  split
  · subst n
    rfl
  · rename_i h
    rw [List.getLast?_reverse, Nat.digits_def' (by decide) (Nat.pos_of_ne_zero h)]
    rfl

theorem length_decimal_le {n k : Nat} (hk : 0 < k) (h : n < 10 ^ k) :
    (decimal n).length ≤ k := by
  rw [decimal, List.length_map]
  split
  · exact hk
  · rw [List.length_reverse]
    exact (Nat.digits_length_le_iff (by decide) n).mpr h

/-- Reading digits from the most significant one down is evaluating the number
from the least significant one up. -/
theorem foldr_digits (ds : List Nat) (h : ∀ d ∈ ds, d < 10) :
    ds.foldr (fun d v ↦ 10 * v + ((UInt8.ofNat (48 + d)).toNat - 48)) 0 = Nat.ofDigits 10 ds := by
  induction ds with
  | nil => rfl
  | cons d ds ih =>
      have hd : (UInt8.ofNat (48 + d)).toNat = 48 + d :=
        UInt8.toNat_ofNat_of_lt' (show _ < 256 by have := h d (by simp); omega)
      rw [List.foldr_cons, ih fun e he ↦ h e (by simp [he]), hd, Nat.ofDigits_cons,
        Nat.add_sub_cancel_left]
      exact Nat.add_comm _ _

theorem digitsValue_decimal (n : Nat) : digitsValue (decimal n) = n := by
  rw [digitsValue, decimal]
  split
  · subst n
    decide
  · rw [List.map_reverse, List.foldl_reverse, List.foldr_map,
      foldr_digits _ fun d hd ↦ Nat.digits_lt_base (by decide) hd, Nat.ofDigits_digits]

theorem formatInt_natCast (n : Nat) : formatInt n = decimal n := by
  rw [formatInt, if_neg (by omega), Int.natAbs_natCast]

theorem formatInt_ne_nil (v : Int) : formatInt v ≠ [] := by
  rw [formatInt]
  split
  · exact List.cons_ne_nil _ _
  · exact decimal_ne_nil _

/-- The last character of a number, whatever its sign. -/
theorem getLast_formatInt (v : Int) :
    (formatInt v).getLast (formatInt_ne_nil v) = UInt8.ofNat (48 + v.natAbs % 10) := by
  rw [← Option.some.injEq, ← List.getLast?_eq_some_getLast, formatInt]
  split
  · rw [List.getLast?_cons, getLast?_decimal, Option.getD_some]
  · exact getLast?_decimal _

/-- A number of at most `width` digits fills the field exactly. -/
theorem length_sprintfD {width n : Nat} (hw : 0 < width) (h : n < 10 ^ width) :
    (sprintfD width n).length = width + 1 := by
  have hd := length_decimal_le hw h
  rw [sprintfD, formatInt_natCast]
  simp only [List.leftpad, List.length_append, List.length_replicate, List.length_singleton]
  omega

/-- Padding is skipped: white space in front of a number does not matter. -/
theorem dropWhile_isspace_pad (k n : Nat) :
    (List.replicate k 32 ++ decimal n).dropWhile isspace = decimal n := by
  induction k with
  | zero =>
      obtain ⟨c, cs, hc⟩ := List.exists_cons_of_ne_nil (decimal_ne_nil n)
      have hd : isdigit c = true := decimal_isdigit (n := n) (by rw [hc]; simp)
      simp [hc, not_isspace_of_isdigit hd]
  | succ k ih =>
      rw [List.replicate_succ, List.cons_append, List.dropWhile_cons, ih]
      simp [isspace]

theorem readSign_decimal (n : Nat) : readSign (decimal n) = (false, decimal n) := by
  obtain ⟨c, cs, hc⟩ := List.exists_cons_of_ne_nil (decimal_ne_nil n)
  have hd : isdigit c = true := decimal_isdigit (n := n) (by rw [hc]; simp)
  rw [hc]
  exact readSign_of_isdigit hd cs

/-- **`atoi` undoes `sprintf` with a field width**, whatever stands in memory
behind the terminating NUL. -/
theorem atoi_sprintfD {width n : Nat} (hn : (n : Int) ≤ intMax) (rest : List UInt8) :
    atoi (sprintfD width n ++ rest) = n := by
  have hnz : ∀ c ∈ (decimal n).leftpad width 32, c ≠ 0 := by
    intro c hc
    rcases List.mem_append.mp hc with h | h
    · rw [List.eq_of_mem_replicate h]
      decide
    · exact isdigit_ne_zero (decimal_isdigit h)
  have hcstr : cstr (sprintfD width n ++ rest) = (decimal n).leftpad width 32 := by
    rw [sprintfD, formatInt_natCast, List.append_assoc, List.singleton_append, cstr_append_zero hnz]
  have hdigits : (decimal n).takeWhile isdigit = decimal n :=
    List.takeWhile_eq_self_iff.mpr fun c hc ↦ decimal_isdigit hc
  rw [atoi, hcstr, List.leftpad, dropWhile_isspace_pad, readSign_decimal]
  simp only [hdigits, digitsValue_decimal, Bool.false_eq_true, if_false]
  exact clampInt_of_mem (by simp only [intMin]; omega) hn

example : sprintfD 4 12 = [32, 32, 49, 50, 0] := by decide
example : atoi [32, 9, 45, 49, 50, 46, 0] = -12 := by decide

end CppExamples.Lib
