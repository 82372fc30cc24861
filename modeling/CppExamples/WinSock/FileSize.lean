import CppExamples.Lib.CString

/-!
# The size of a file

The programs `TCP-Client.cpp` and `TCP-Server.cpp`, and `UDP-Client.cpp` and
`UDP-Server.cpp`, do the same over the two protocols.  The client reads the name
of a file and sends it, the server looks how long its file of that name is and
sends the number back as text, and the client prints it.  This module is what the
programs have in common.

The server keeps the length in an `int`, and the text `-1` says that there is no
such file.  So the answer is right exactly if the file is shorter than 2 GiB
(`truthful_report_iff`).
-/

namespace CppExamples.WinSock.FileSize

open CppExamples.Lib

def DEFAULT_BUFLEN : Nat := 256

/-- `std::cin.getline(filename, DEFAULT_BUFLEN, '\n')` of a line: the C string
that is in `filename` afterwards. -/
def getFilename (line : List UInt8) : List UInt8 := cstr (line.take (DEFAULT_BUFLEN - 1))

/-! ## The server -/

/-- The files that can be opened, and their lengths. -/
abbrev Files := List UInt8 → Option Nat

/-- Open the file, go to its end, and store `tellg` in an `int`; `tellg` is -1 if
the file could not be opened. -/
def fileSize (files : Files) (filename : List UInt8) : Int :=
  match files (cstr filename) with
  | none => -1
  | some length => (BitVec.ofNat 32 length).toInt

/-- The text that is sent: `std::to_string`, copied into `tempc` up to the NUL
and measured by `strlen`. -/
def sendbuf (fileSize : Int) : List UInt8 := cstr (formatInt fileSize ++ [0])

/-! ## The client -/

/-- The lines that the client prints once it has sent the name. -/
inductive Line where
  | noFile (filename : List UInt8)
  | size (filename size : List UInt8)
  | connectionClosed
  | recvFailed
  | sendFailed
  | shutdownFailed
deriving DecidableEq

/-- What the client prints for a text that it has received. -/
def report (filename size : List UInt8) : Line :=
  if size = [45, 49] then .noFile filename else .size filename size

/-- The text that a line has been printed for. -/
def Line.text : Line → List UInt8
  | .noFile _ => [45, 49]
  | .size _ text => text
  | _ => []

/-! ## The answer -/

/-- The line says how long the file is, or that there is none. -/
def Truthful (files : Files) (filename : List UInt8) (l : Line) : Prop :=
  match files filename with
  | none => l = .noFile filename
  | some length => l = .size filename (decimal length)

variable {files : Files} {filename : List UInt8}

@[simp] theorem text_report (filename size : List UInt8) : (report filename size).text = size := by
  rw [report]
  split
  · rename_i h
    exact h.symm
  · rfl

/-- A minus sign is no digit. -/
theorem minus_not_mem_decimal (n : Nat) : 45 ∉ decimal n := by
  intro h
  exact absurd (decimal_isdigit h) (by decide)

theorem ne_zero_of_mem_formatInt {v : Int} {c : UInt8} (h : c ∈ formatInt v) : c ≠ 0 := by
  rw [formatInt] at h
  split at h
  · rcases List.mem_cons.mp h with rfl | h
    · decide
    · exact isdigit_ne_zero (decimal_isdigit h)
  · exact isdigit_ne_zero (decimal_isdigit h)

theorem sendbuf_eq (v : Int) : sendbuf v = formatInt v :=
  cstr_append_zero (fun _ h ↦ ne_zero_of_mem_formatInt h) []

/-- An `int` has at most ten digits and a sign. -/
theorem length_sendbuf_le (files : Files) (filename : List UInt8) :
    (sendbuf (fileSize files filename)).length ≤ 11 := by
  have hdigits {n : Nat} (h : n ≤ 2 ^ 31) : (decimal n).length ≤ 10 :=
    length_decimal_le (by decide) (h.trans_lt (by decide))
  have hint (v : BitVec 32) : v.toInt.natAbs ≤ 2 ^ 31 := by
    have := v.toInt_lt
    have := v.le_toInt
    omega
  have hformat {v : Int} (h : v.natAbs ≤ 2 ^ 31) : (formatInt v).length ≤ 11 := by
    have := hdigits h
    rw [formatInt]
    split
    · rw [List.length_cons]
      omega
    · omega
  rw [sendbuf_eq, fileSize]
  split
  · exact hformat (by decide)
  · exact hformat (hint _)

/-- A name that is typed has no NUL, and is shorter than the buffer. -/
theorem getFilename_spec (line : List UInt8) :
    cstr (getFilename line) = getFilename line ∧
      (getFilename line).length < DEFAULT_BUFLEN := by
  refine ⟨cstr_eq_self_iff.mpr fun c hc ↦ ne_zero_of_mem_cstr hc, ?_⟩
  have hcstr : (getFilename line).length ≤ (line.take (DEFAULT_BUFLEN - 1)).length :=
    (List.takeWhile_prefix _).length_le
  exact hcstr.trans_lt (Nat.lt_of_le_of_lt (List.length_take_le _ _) (by decide))

/-- **The answer is right** exactly if the length of the file is an `int`. -/
theorem truthful_report_iff (hname : cstr filename = filename) :
    Truthful files filename (report filename (sendbuf (fileSize files filename))) ↔
      ∀ length, files filename = some length → length < 2 ^ 31 := by
  rw [sendbuf_eq, fileSize, hname, Truthful]
  cases files filename with
  | none => simp [report, show formatInt (-1) = [45, 49] by decide]
  | some length =>
      dsimp only
      constructor
      · rintro h length' ⟨⟩
        have htext : formatInt (BitVec.ofNat 32 length).toInt = decimal length := by
          rw [← text_report filename (formatInt _), h]
          rfl
        rw [formatInt] at htext
        split at htext
        · exact absurd (htext ▸ List.mem_cons_self ..) (minus_not_mem_decimal length)
        · have hvalue := congrArg digitsValue htext
          rw [digitsValue_decimal, digitsValue_decimal] at hvalue
          have := (BitVec.ofNat 32 length).toInt_lt
          omega
      · intro h
        have hlt := h length rfl
        have hint : (BitVec.ofNat 32 length).toInt = length := by
          have hnat : (BitVec.ofNat 32 length).toNat = length := by
            rw [BitVec.toNat_ofNat, Nat.mod_eq_of_lt (by omega)]
          rw [BitVec.toInt_eq_toNat_of_lt (by omega), hnat]
        rw [hint, formatInt_natCast, report, if_neg]
        intro hminus
        exact minus_not_mem_decimal length (hminus ▸ List.mem_cons_self ..)

end CppExamples.WinSock.FileSize
