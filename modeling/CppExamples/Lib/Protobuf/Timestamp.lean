import CppExamples.Lib.Protobuf.UnknownField

/-!
# `google.protobuf.Timestamp`

The well-known type: seconds since the epoch, and nanoseconds.  Its fields are
written in the order of their numbers, those that are zero are left out, and a
number of 32 bits is written with its sign extended to 64.
-/

namespace CppExamples.Lib.Protobuf

/-- A `Timestamp` message. -/
structure Timestamp where
  seconds : BitVec 64
  nanos : BitVec 32
  unknownFields : List UnknownField

/-- The varint of an `int32` or of an enumeration. -/
def varintInt32 (v : BitVec 32) : List UInt8 := varint (v.signExtend 64).toNat

/-- Read an `int32` or an enumeration. -/
def readInt32 (s : List UInt8) : Option (BitVec 32 × List UInt8) :=
  (readVarint64 s).map fun r ↦ (r.1.setWidth 32, r.2)

theorem readInt32_varintInt32 (v : BitVec 32) (s : List UInt8) :
    readInt32 (varintInt32 v ++ s) = some (v, s) := by
  have hv : (v.signExtend 64).setWidth 32 = v := by
    ext i hi
    have hi' : i < 64 := by omega
    simp [BitVec.getElem_signExtend, hi, hi']
  rw [readInt32, varintInt32, readVarint64_varint, Option.map_some, hv]

theorem readInt32_length {v : BitVec 32} {s rest : List UInt8}
    (h : readInt32 s = some (v, rest)) : rest.length < s.length := by
  obtain ⟨r, hr, he⟩ := Option.map_eq_some_iff.mp h
  cases he
  exact readVarint64_length hr

namespace Timestamp

/-- What a new message holds. -/
def empty : Timestamp := ⟨0, 0, []⟩

def internalSerialize (t : Timestamp) : List UInt8 :=
  fieldBytes (t.seconds ≠ 0) 8 (varint t.seconds.toNat) ++
    (fieldBytes (t.nanos ≠ 0) 16 (varintInt32 t.nanos) ++ serializeUnknownFields t.unknownFields)

def byteSizeLong (t : Timestamp) : Nat :=
  (if t.seconds ≠ 0 then 1 + varintSize t.seconds.toNat else 0) +
    ((if t.nanos ≠ 0 then 1 + varintSize (t.nanos.signExtend 64).toNat else 0) +
      (serializeUnknownFields t.unknownFields).length)

/-- The fields of a `Timestamp`, with `depth` levels of nesting left.  A number that
cannot be read is zero. -/
def fields (depth : Nat) : FieldParser Timestamp where
  run tag t bytes := match tag with
    | 8 => readInto (readVarint64 bytes) { t with seconds := 0 } fun v ↦ { t with seconds := v }
    | 16 => readInto (readInt32 bytes) { t with nanos := 0 } fun v ↦ { t with nanos := v }
    | tag => parseUnknown depth tag t.unknownFields bytes fun u ↦ { t with unknownFields := u }
  length_le := by
    intro tag t bytes rest h
    split at h
    · exact readInto_length (fun _ _ h ↦ (readVarint64_length h).le) h
    · exact readInto_length (fun _ _ h ↦ (readInt32_length h).le) h
    · exact FieldParser.length_le _ h

/-- The size that is computed before the message is written. -/
theorem length_internalSerialize (t : Timestamp) :
    t.internalSerialize.length = t.byteSizeLong := by
  simp only [internalSerialize, byteSizeLong, List.length_append, length_fieldBytes, varintInt32,
    varintSize]

/-- **A timestamp is read back**, whatever the level of nesting. -/
theorem parse_internalSerialize {t : Timestamp} (ht : t.unknownFields = []) (depth : Nat) :
    (fields depth).parse empty t.internalSerialize = (t, .atLimit) := by
  have hs : ¬ t.seconds ≠ 0 → ⟨t.seconds, 0, []⟩ = empty := fun h ↦ by rw [not_ne_iff.mp h]; rfl
  have hn : ¬ t.nanos ≠ 0 → t = ⟨t.seconds, 0, []⟩ := fun h ↦ by rw [← not_ne_iff.mp h, ← ht]
  rw [internalSerialize,
    FieldParser.parse_fieldBytes ⟨t.seconds, 0, []⟩ (by decide)
      (fun _ ↦ by simp [fields, readInto, readVarint64_varint, empty]) hs,
    FieldParser.parse_fieldBytes t (by decide)
      (fun _ ↦ by simp [fields, readInto, readInt32_varintInt32, ← ht]) hn, ht]
  rfl

end Timestamp

end CppExamples.Lib.Protobuf
