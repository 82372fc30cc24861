import CppExamples.Lib.CString

/-!
# Burst types

`testSwitch` of `ConsoleApplication1.cpp` has two switches for the type of a
burst.  The first one looks at the last character of its decimal text, and only
if the type is no multiple of ten; the second one looks at the type itself, and
only if it is.

A remainder in C++ has the sign of the dividend, and a negative number is written
with its sign in front: so the last character is the last digit of the absolute
value, and the test for zero is a test of this digit.
-/

namespace CppExamples.ConsoleApplication

open CppExamples.Lib

/-- `std::to_string(burstType).back()` -/
def backNumber (burstType : Int) : UInt8 :=
  (formatInt burstType).getLast (formatInt_ne_nil burstType)

/-- `switch (backNumber)`, on the digits from one to six. -/
def switchBackNumber (backNumber : UInt8) (messageType : String) : String :=
  match backNumber with
  | 49 | 50 | 51 | 52 | 53 | 54 => "voice burst"
  | _ => messageType

/-- `switch (burstType)` -/
def switchBurstType (burstType : Int) (messageType : String) : String :=
  match burstType with
  | 210 | 230 | 250 | 260 => "data burst"
  | _ => messageType

/-- The first `if`: what `messageType` is afterwards. -/
def voiceSwitch (burstType : Int) (messageType : String) : String :=
  if burstType.tmod 10 ≠ 0 then switchBackNumber (backNumber burstType) messageType
  else messageType

/-- The second `if`. -/
def dataSwitch (burstType : Int) (messageType : String) : String :=
  if burstType.tmod 10 = 0 then switchBurstType burstType messageType else messageType

def testSwitch (burstType : Int) : String :=
  dataSwitch burstType (voiceSwitch burstType "unknown")

/-! ## The last digit -/

/-- **The two readings agree**: the remainder is zero exactly if the digit is. -/
theorem tmod_ne_zero_iff (b : Int) : b.tmod 10 ≠ 0 ↔ backNumber b ≠ 48 := by
  have hdigit : ∀ d < 10, UInt8.ofNat (48 + d) = 48 ↔ d = 0 := by decide
  have hrem : b.tmod 10 = 0 ↔ b.natAbs % 10 = 0 := by
    rw [← Int.natAbs_eq_zero, Int.natAbs_tmod]
    rfl
  rw [backNumber, getLast_formatInt, not_iff_not, hrem,
    hdigit _ (Nat.mod_lt _ (by decide))]

/-! ## The classes -/

/-- The last digit is from one to six. -/
def IsVoiceBurst (b : Int) : Prop := 1 ≤ b.natAbs % 10 ∧ b.natAbs % 10 ≤ 6

def IsDataBurst (b : Int) : Prop := b = 210 ∨ b = 230 ∨ b = 250 ∨ b = 260

instance (b : Int) : Decidable (IsVoiceBurst b) := inferInstanceAs (Decidable (_ ∧ _))

instance (b : Int) : Decidable (IsDataBurst b) := inferInstanceAs (Decidable (_ ∨ _))

/-- No burst is of both classes: data bursts are multiples of ten. -/
theorem not_isVoiceBurst_of_isDataBurst {b : Int} (h : IsDataBurst b) : ¬ IsVoiceBurst b := by
  rcases h with rfl | rfl | rfl | rfl <;> decide

theorem switchBackNumber_digit {d : Nat} (hd : d < 10) (messageType : String) :
    switchBackNumber (UInt8.ofNat (48 + d)) messageType =
      if 1 ≤ d ∧ d ≤ 6 then "voice burst" else messageType := by
  interval_cases d <;> rfl

/-- **What the first switch does.** -/
theorem voiceSwitch_eq (b : Int) (messageType : String) :
    voiceSwitch b messageType = if IsVoiceBurst b then "voice burst" else messageType := by
  have hswitch := switchBackNumber_digit (Nat.mod_lt b.natAbs (by decide : 0 < 10)) messageType
  rw [voiceSwitch]
  split
  · rw [backNumber, getLast_formatInt, hswitch]
    rfl
  · rename_i h
    rw [tmod_ne_zero_iff, not_not, backNumber, getLast_formatInt] at h
    -- the digit is a zero, which is not one of the cases of the switch
    rw [h] at hswitch
    exact hswitch

theorem switchBurstType_eq (b : Int) (messageType : String) :
    switchBurstType b messageType = if IsDataBurst b then "data burst" else messageType := by
  unfold switchBurstType
  split
  · rfl
  · rfl
  · rfl
  · rfl
  · rename_i h₁ h₂ h₃ h₄
    rw [if_neg]
    rintro (h | h | h | h)
    · exact h₁ h
    · exact h₂ h
    · exact h₃ h
    · exact h₄ h

/-- **What the second switch does**: its test for a multiple of ten lets all of its
cases through. -/
theorem dataSwitch_eq (b : Int) (messageType : String) :
    dataSwitch b messageType = if IsDataBurst b then "data burst" else messageType := by
  rw [dataSwitch]
  split
  · exact switchBurstType_eq b messageType
  · rename_i h
    rw [if_neg]
    rintro (rfl | rfl | rfl | rfl) <;> exact h rfl

/-- **How bursts are classified.**  For every type, of whatever sign and length:
the last character of the text is the last digit of the absolute value, and the
remainder is zero exactly if this digit is; the message type is that of the class
of the burst; and one of the switches leaves it as it is. -/
theorem testSwitch_classifies (b : Int) :
    backNumber b = UInt8.ofNat (48 + b.natAbs % 10) ∧
      (b.tmod 10 ≠ 0 ↔ backNumber b ≠ 48) ∧
      (testSwitch b = "voice burst" ↔ IsVoiceBurst b) ∧
      (testSwitch b = "data burst" ↔ IsDataBurst b) ∧
      (testSwitch b = "unknown" ↔ ¬ IsVoiceBurst b ∧ ¬ IsDataBurst b) ∧
      ((∀ messageType, voiceSwitch b messageType = messageType) ∨
        ∀ messageType, dataSwitch b messageType = messageType) := by
  have hsum : testSwitch b = if IsDataBurst b then "data burst"
      else if IsVoiceBurst b then "voice burst" else "unknown" := by
    rw [testSwitch, dataSwitch_eq, voiceSwitch_eq]
  refine ⟨getLast_formatInt b, tmod_ne_zero_iff b, ?_⟩
  by_cases hdata : IsDataBurst b
  · have hvoice := not_isVoiceBurst_of_isDataBurst hdata
    rw [hsum, if_pos hdata]
    refine ⟨iff_of_false (by decide) hvoice, iff_of_true rfl hdata,
      iff_of_false (by decide) fun h ↦ h.2 hdata, .inl fun messageType ↦ ?_⟩
    rw [voiceSwitch_eq, if_neg hvoice]
  · have hkeep (messageType : String) : dataSwitch b messageType = messageType := by
      rw [dataSwitch_eq, if_neg hdata]
    rw [hsum, if_neg hdata]
    by_cases hvoice : IsVoiceBurst b
    · rw [if_pos hvoice]
      exact ⟨iff_of_true rfl hvoice, iff_of_false (by decide) hdata,
        iff_of_false (by decide) fun h ↦ h.1 hvoice, .inr hkeep⟩
    · rw [if_neg hvoice]
      exact ⟨iff_of_false (by decide) hvoice, iff_of_false (by decide) hdata,
        iff_of_true rfl ⟨hvoice, hdata⟩, .inr hkeep⟩

example : testSwitch (-2147483646) = "voice burst" := by decide

end CppExamples.ConsoleApplication
