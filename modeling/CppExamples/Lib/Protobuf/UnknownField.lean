import CppExamples.Lib.Protobuf.Parse

/-!
# Unknown fields

A parser keeps the fields that its message does not define, and the serialiser
writes them back.  A group is a sequence of fields between a start tag and the
end tag of the same number, and counts as a level of nesting.
-/

namespace CppExamples.Lib.Protobuf

/-- A field that the message does not define. -/
inductive UnknownField where
  | varint (number : Nat) (value : BitVec 64)
  | fixed64 (number : Nat) (value : List UInt8)
  | lengthDelimited (number : Nat) (value : List UInt8)
  | group (number : Nat) (fields : List UnknownField)
  | fixed32 (number : Nat) (value : List UInt8)

/-! ## Writing -/

/-- The tag of a field: its number and its wire type. -/
def tagOf (number wireType : Nat) : List UInt8 := varint (number * 8 + wireType)

mutual

/-- The bytes of an unknown field. -/
def UnknownField.serialize : UnknownField → List UInt8
  | .varint number v => tagOf number 0 ++ Protobuf.varint v.toNat
  | .fixed64 number v => tagOf number 1 ++ v
  | .lengthDelimited number v => tagOf number 2 ++ (Protobuf.varint v.length ++ v)
  | .group number fields => tagOf number 3 ++ (serializeUnknownFields fields ++ tagOf number 4)
  | .fixed32 number v => tagOf number 5 ++ v

/-- `InternalSerializeUnknownFieldsToArray` -/
def serializeUnknownFields : List UnknownField → List UInt8
  | [] => []
  | f :: fields => f.serialize ++ serializeUnknownFields fields

end

/-! ## Parsing -/

/-- `UnknownFieldParse`; the parser for the fields of a group is missing where
no more nesting is allowed. -/
def unknownFieldsWith (inGroup : Option (FieldParser (List UnknownField))) :
    FieldParser (List UnknownField) where
  run tag fields bytes :=
    let number := tag / 8
    if number = 0 then (fields, none)
    else match tag % 8 with
      | 0 => readInto (readVarint64 bytes) fields fun v ↦ fields ++ [.varint number v]
      | 1 => readInto (readFixed 8 bytes) fields fun v ↦ fields ++ [.fixed64 number v]
      | 2 => readInto (readBytes bytes) fields fun v ↦ fields ++ [.lengthDelimited number v]
      | 3 => match inGroup with
          | none => (fields, none)
          | some P => match P.parse [] bytes with
              | (sub, .lastTag endTag rest) =>
                  (fields ++ [.group number sub], if endTag = tag + 1 then some rest else none)
              | (sub, _) => (fields ++ [.group number sub], none)
      | 5 => readInto (readFixed 4 bytes) fields fun v ↦ fields ++ [.fixed32 number v]
      | _ => (fields, none)
  length_le := by
    intro tag fields bytes rest h
    dsimp only at h
    split at h
    · cases h
    · split at h
      · exact readInto_length (fun _ _ h ↦ (readVarint64_length h).le) h
      · exact readInto_length (fun _ _ h ↦ readFixed_length h) h
      · exact readInto_length (fun _ _ h ↦ readBytes_length h) h
      · split at h
        · cases h
        · split at h
          · rename_i hp
            dsimp only at h
            split at h
            · cases h
              exact (FieldParser.length_of_lastTag hp).le
            · cases h
          · cases h
      · exact readInto_length (fun _ _ h ↦ readFixed_length h) h
      · cases h

/-- The parser of unknown fields, with `depth` levels of nesting left. -/
def unknownFields : Nat → FieldParser (List UnknownField)
  | 0 => unknownFieldsWith none
  | depth + 1 => unknownFieldsWith (some (unknownFields depth))

/-- Parse an unknown field of a message that keeps them in `fields`. -/
def parseUnknown {σ : Type} (depth tag : Nat) (fields : List UnknownField) (bytes : List UInt8)
    (set : List UnknownField → σ) : σ × Option (List UInt8) :=
  let r := (unknownFields depth).run tag fields bytes
  (set r.1, r.2)

/-- The bytes behind an unknown field, if it can be parsed. -/
def skipUnknown (depth tag : Nat) (bytes : List UInt8) : Option (List UInt8) :=
  ((unknownFields depth).run tag [] bytes).2

theorem snd_unknownFieldsWith {g : Option (FieldParser (List UnknownField))} {tag : Nat}
    {fields fields' : List UnknownField} {bytes : List UInt8} :
    ((unknownFieldsWith g).run tag fields bytes).2 =
      ((unknownFieldsWith g).run tag fields' bytes).2 := by
  have hread {α : Type} (r : Option (α × List UInt8)) (f : α → UnknownField) :
      (readInto r fields fun v ↦ fields ++ [f v]).2 =
        (readInto r fields' fun v ↦ fields' ++ [f v]).2 := by
    cases r <;> rfl
  simp only [unknownFieldsWith]
  split
  · rfl
  · split
    · exact hread _ _
    · exact hread _ _
    · exact hread _ _
    · split
      · rfl
      · split <;> rfl
    · exact hread _ _
    · rfl

/-- What is behind an unknown field does not depend on those before it. -/
theorem snd_unknownFields {depth tag : Nat} {fields : List UnknownField} {bytes : List UInt8} :
    ((unknownFields depth).run tag fields bytes).2 = skipUnknown depth tag bytes := by
  cases depth with
  | zero => exact snd_unknownFieldsWith
  | succ depth => exact snd_unknownFieldsWith

/-- Every unknown field that is parsed is kept. -/
theorem length_unknownFieldsWith {g : Option (FieldParser (List UnknownField))} {tag : Nat}
    {fields fields' : List UnknownField} {bytes rest : List UInt8}
    (h : (unknownFieldsWith g).run tag fields bytes = (fields', some rest)) :
    fields.length < fields'.length := by
  have hone {f : UnknownField} : fields.length < (fields ++ [f]).length := by simp
  have hread {α : Type} {r : Option (α × List UInt8)} {f : α → UnknownField}
      (h : readInto r fields (fun v ↦ fields ++ [f v]) = (fields', some rest)) :
      fields.length < fields'.length := by
    cases r with
    | none => cases h
    | some p => cases h; exact hone
  simp only [unknownFieldsWith] at h
  split at h
  · cases h
  · split at h
    · exact hread h
    · exact hread h
    · exact hread h
    · split at h
      · cases h
      · split at h
        · rw [Prod.mk.injEq] at h
          rw [← h.1]
          exact hone
        · cases h
    · exact hread h
    · cases h

theorem length_unknownFields {depth tag : Nat} {fields fields' : List UnknownField}
    {bytes rest : List UInt8}
    (h : (unknownFields depth).run tag fields bytes = (fields', some rest)) :
    fields.length < fields'.length := by
  cases depth with
  | zero => exact length_unknownFieldsWith h
  | succ depth => exact length_unknownFieldsWith h

end CppExamples.Lib.Protobuf
