import CppExamples.Lib.Buffer
import CppExamples.Lib.CString

/-!
# C strings in arrays

A routine that is given a C string in an array reads on to the first NUL.  If
there is none in the array it reads behind the end of the array, which is
undefined.

* `cstrIn` is the string, or `none` if reading it leaves the array.
* `Buffer.strcat` is `strcat` from one array to the end of the string in another
  one, or `none` if that reads or writes outside of them.
-/

namespace CppExamples.Lib

/-- The C string in an array with the contents `s`. -/
def cstrIn (s : List UInt8) : Option (List UInt8) := if 0 ∈ s then some (cstr s) else none

variable {s t : List UInt8}

theorem cstrIn_of_mem (h : 0 ∈ s) : cstrIn s = some (cstr s) := if_pos h

theorem cstrIn_of_not_mem (h : 0 ∉ s) : cstrIn s = none := if_neg h

/-- A string without NULs goes on with what is behind it. -/
theorem cstr_append_of_not_mem (h : 0 ∉ s) : cstr (s ++ t) = s ++ cstr t := by
  apply List.takeWhile_append_of_pos
  intro c hc
  rw [decide_eq_true_iff]
  rintro rfl
  exact h hc

/-- The NUL of a string is not part of it. -/
theorem length_cstr_lt (h : 0 ∈ s) : (cstr s).length < s.length := by
  obtain ⟨a, b, rfl⟩ := List.append_of_mem h
  rw [cstr_append_cons_zero, List.length_append, List.length_cons]
  have := (List.takeWhile_prefix (fun c : UInt8 ↦ decide (c ≠ 0)) (l := a)).length_le
  rw [cstr]
  omega

/-- A string is empty if there is a NUL at its start, or nothing at all. -/
theorem cstr_eq_nil_iff : cstr s = [] ↔ s = [] ∨ s.head? = some 0 := by
  cases s with
  | nil => simp [cstr]
  | cons c s => simp [cstr, List.takeWhile_cons]

namespace Buffer

variable {n m : Nat}

/-- `strcat(dst, src)`: the array at `dst` afterwards. -/
def strcat (dst : Buffer n) (src : Buffer m) : Option (Buffer n) := do
  let head ← cstrIn dst.bytes
  let tail ← cstrIn src.bytes
  if head.length + tail.length < n then some (dst.storeAt head.length (tail ++ [0])) else none

/-- When `strcat` stays inside of the arrays. -/
structure StrcatFits (dst : Buffer n) (src : Buffer m) : Prop where
  head : 0 ∈ dst.bytes
  tail : 0 ∈ src.bytes
  room : (cstr dst.bytes).length + (cstr src.bytes).length < n

variable {dst : Buffer n} {src : Buffer m}

theorem strcat_of_fits (h : dst.StrcatFits src) : dst.strcat src =
    some (dst.storeAt (cstr dst.bytes).length (cstr src.bytes ++ [0])) := by
  simp [strcat, cstrIn_of_mem h.head, cstrIn_of_mem h.tail, h.room]

theorem fits_of_strcat {b : Buffer n} (h : dst.strcat src = some b) : dst.StrcatFits src := by
  by_cases hd : 0 ∈ dst.bytes
  · by_cases hs : 0 ∈ src.bytes
    · simp only [strcat, cstrIn_of_mem hd, cstrIn_of_mem hs, Option.bind_eq_bind,
        Option.bind_some] at h
      split at h
      · exact ⟨hd, hs, ‹_›⟩
      · cases h
    · simp [strcat, cstrIn_of_mem hd, cstrIn_of_not_mem hs] at h
  · simp [strcat, cstrIn_of_not_mem hd] at h

/-- **The string that `strcat` builds**, which ends inside of the array. -/
theorem strcat_spec {b : Buffer n} (h : dst.strcat src = some b) :
    cstr b.bytes = cstr dst.bytes ++ cstr src.bytes ∧ 0 ∈ b.bytes := by
  have hfits := fits_of_strcat h
  rw [strcat_of_fits hfits] at h
  obtain rfl := Option.some.inj h
  have hroom := hfits.room
  have hfit : (cstr dst.bytes).length + (cstr src.bytes ++ [0]).length ≤ n := by
    rw [List.length_append, List.length_singleton]
    omega
  have hfront : dst.bytes.take (cstr dst.bytes).length = cstr dst.bytes :=
    (List.prefix_iff_eq_take.mp (List.takeWhile_prefix _)).symm
  have hbytes := bytes_storeAt_of_le (b := dst) hfit
  rw [hfront, List.append_assoc, List.singleton_append] at hbytes
  rw [hbytes]
  constructor
  · rw [cstr_append_of_not_mem fun h0 ↦ ne_zero_of_mem_cstr h0 rfl, cstr_append_cons_zero,
      cstr_eq_self_iff.mpr fun c hc ↦ ne_zero_of_mem_cstr hc]
  · simp

end Buffer

end CppExamples.Lib
