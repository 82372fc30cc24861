import CppExamples.AsyncUdp.Message

/-!
# Which headers are accepted

A header is text: the bytes in front of its first NUL.  `decode_header` leaves it
to `atoi` to read a number there, and asks no more of the number than that it is
not too large as a `size_t`, which no negative number is.

A text without a number is no error to `atoi`.  So `decode_header` accepts the
texts whose number is within the limit, and those that have none, which count as
a length of zero.
-/

namespace CppExamples.AsyncUdp

open CppExamples.Lib

namespace Message

/-- The text of the header. -/
def headerText (m : Message) : List UInt8 := cstr (m.data.bytes.take headerLength)

variable {z : SizeT} {m : Message}

/-- The `int`s that pass the test of `decode_header` are those from zero to the
limit: a negative one is a large `size_t`. -/
theorem ofInt_le_iff (z : SizeT) {v : Int} (hmin : intMin ≤ v) (hmax : v ≤ intMax) :
    z.ofInt v ≤ maxBodyLength ↔ 0 ≤ v ∧ v ≤ maxBodyLength := by
  simp only [intMin, intMax, maxBodyLength] at hmin hmax ⊢
  cases z <;> simp only [SizeT.ofInt, SizeT.bits] <;> omega

/-- The nearest `int` is within the limit exactly if the number is, and then it is
the number. -/
theorem clampInt_le_iff {v : Int} :
    (0 ≤ clampInt v ∧ clampInt v ≤ maxBodyLength) ↔ 0 ≤ v ∧ v ≤ maxBodyLength := by
  simp only [clampInt, intMin, intMax, maxBodyLength]
  omega

theorem clampInt_mem (v : Int) : intMin ≤ clampInt v ∧ clampInt v ≤ intMax := by
  simp only [clampInt, intMin, intMax]
  omega

/-- A header whose number is within the limit. -/
theorem decodeHeader_of_numeral {v : Int} (h : Numeral m.headerText v) (h₀ : 0 ≤ v)
    (hmax : v ≤ maxBodyLength) :
    m.decodeHeader z = (true, { m with bodyLength := v.toNat }) := by
  have hv : v.toNat ≤ maxBodyLength := Int.toNat_le.mpr hmax
  refine decodeHeader_of_le ?_ hv
  have hclamp : clampInt v = v.toNat := by
    simp only [clampInt, intMin, intMax]
    simp only [maxBodyLength] at hmax
    omega
  rw [headerValue, atoi_of_numeral h, hclamp, ofInt_of_le z hv]

/-- A header whose number is not within the limit. -/
theorem decodeHeader_of_not_numeral_le {v : Int} (h : Numeral m.headerText v)
    (hv : ¬ (0 ≤ v ∧ v ≤ maxBodyLength)) :
    m.decodeHeader z = (false, { m with bodyLength := 0 }) := by
  have hlarge : m.headerValue z > maxBodyLength := by
    rw [← clampInt_le_iff, ← ofInt_le_iff z (clampInt_mem v).1 (clampInt_mem v).2,
      ← atoi_of_numeral h] at hv
    exact Nat.lt_of_not_le hv
  rw [decodeHeader_eq, if_pos hlarge]

/-- A header without a number. -/
theorem decodeHeader_of_no_numeral (h : ∀ v, ¬ Numeral m.headerText v) :
    m.decodeHeader z = (true, { m with bodyLength := 0 }) := by
  refine decodeHeader_of_le ?_ (Nat.zero_le _)
  rw [headerValue, atoi_of_not_numeral h]
  exact ofInt_of_le z (Nat.zero_le _)

/-- **What `decode_header` accepts.**  For every content of the header it returns
`true` exactly if no number outside of the limit is written there.  The length it
decodes is then the number written, or zero if there is none; otherwise it is
zero.  The bytes stay as they are. -/
theorem decodeHeader_accepts_iff (z : SizeT) (m : Message) :
    ((m.decodeHeader z).1 = true ↔
      ∀ v, Numeral m.headerText v → 0 ≤ v ∧ v ≤ maxBodyLength) ∧
    ((m.decodeHeader z).1 = true →
      ∀ v, Numeral m.headerText v → ((m.decodeHeader z).2.bodyLength : Int) = v) ∧
    ((∀ v, ¬ Numeral m.headerText v) → (m.decodeHeader z).2.bodyLength = 0) ∧
    ((m.decodeHeader z).1 = false → (m.decodeHeader z).2.bodyLength = 0) ∧
    (m.decodeHeader z).2.data = m.data := by
  refine ⟨⟨?_, ?_⟩, ?_, ?_, ?_, decodeHeader_data z m⟩
  · intro htrue v hnum
    by_contra hv
    rw [decodeHeader_of_not_numeral_le hnum hv] at htrue
    cases htrue
  · intro hall
    by_cases hnum : ∃ v, Numeral m.headerText v
    · obtain ⟨v, hv⟩ := hnum
      rw [decodeHeader_of_numeral hv (hall v hv).1 (hall v hv).2]
    · rw [decodeHeader_of_no_numeral (not_exists.mp hnum)]
  · intro htrue v hnum
    by_cases hv : 0 ≤ v ∧ v ≤ maxBodyLength
    · rw [decodeHeader_of_numeral hnum hv.1 hv.2]
      exact Int.toNat_of_nonneg hv.1
    · rw [decodeHeader_of_not_numeral_le hnum hv] at htrue
      cases htrue
  · intro hnone
    rw [decodeHeader_of_no_numeral hnone]
  · intro hfalse
    rw [decodeHeader_eq] at hfalse ⊢
    split at hfalse
    · rename_i hlarge
      rw [if_pos hlarge]
    · cases hfalse

/-- A header of zeros has no number in it, and is accepted. -/
theorem blankHeader_accepted :
    ¬ ∀ (z : SizeT) (m : Message), (m.decodeHeader z).1 = true ↔
      ∃ v, Numeral m.headerText v ∧ 0 ≤ v ∧ v ≤ maxBodyLength := by
  intro h
  have haccepted : (decodeHeader .bits64 ⟨Buffer.fill _ 0, 7⟩).1 = true := by decide
  obtain ⟨v, hnum, -⟩ := (h .bits64 ⟨Buffer.fill _ 0, 7⟩).mp haccepted
  have htext : headerText ⟨Buffer.fill _ 0, 7⟩ = [] := by decide
  rw [htext] at hnum
  generalize hnil : ([] : List UInt8) = text at hnum
  obtain @⟨space, sign, digits, rest, negative, -, -, hne, -, -⟩ := hnum
  simp [hne] at hnil

end Message

end CppExamples.AsyncUdp
