import CppExamples.Lib.Protobuf.Append

/-!
# Well-formed unknown fields

Not every value of `UnknownField` stands for something on the wire: a field
number has at most 29 bits, a `fixed64` has eight bytes, and groups cannot be
nested deeper than the parser goes down.  Those that do are `WellFormed`.

* A parser yields nothing else (`yieldsWellFormed`).
* What is well-formed is read back as it was written, at the same level of
  nesting and whatever stands before and behind it (`run_body`).

So the unknown fields of a message survive being parsed, written and parsed
again.
-/

namespace CppExamples.Lib.Protobuf

universe u

/-! ## Tags -/

theorem readTag_varint {t : Nat} (ht : t < 2 ^ 32) (s : List UInt8) :
    readTag (varint t ++ s) = some (t, s) := by
  rw [readTag, readVarint_varint (k := 4) (ht.trans_le (by decide)) (by decide), Option.map_some,
    Nat.mod_eq_of_lt ht]

/-- A tag whose wire type is not that of an end. -/
theorem isEndTag_eq_false {t : Nat} (h0 : t ≠ 0) (h4 : t % 8 ≠ 4) : isEndTag t = false := by
  have h7 : t &&& 7 = t % 8 := Nat.and_two_pow_sub_one_eq_mod t 3
  simp [isEndTag, h0, h7, h4]

/-- The tag behind a group. -/
theorem isEndTag_end (number : Nat) : isEndTag (number * 8 + 4) = true := by
  have h7 : (number * 8 + 4) &&& 7 = (number * 8 + 4) % 8 := Nat.and_two_pow_sub_one_eq_mod _ 3
  have h4 : (number * 8 + 4) % 8 = 4 := by omega
  simp [isEndTag, h7, h4]

namespace UnknownField

def number : UnknownField → Nat
  | .varint number _ | .fixed64 number _ | .lengthDelimited number _ | .group number _
  | .fixed32 number _ => number

def wireType : UnknownField → Nat
  | .varint .. => 0
  | .fixed64 .. => 1
  | .lengthDelimited .. => 2
  | .group .. => 3
  | .fixed32 .. => 5

/-- The tag of a field. -/
def tag (f : UnknownField) : Nat := f.number * 8 + f.wireType

/-- What stands behind the tag of a field. -/
def body : UnknownField → List UInt8
  | .varint _ v => Protobuf.varint v.toNat
  | .fixed64 _ v => v
  | .lengthDelimited _ v => Protobuf.varint v.length ++ v
  | .group number fields => serializeUnknownFields fields ++ tagOf number 4
  | .fixed32 _ v => v

theorem serialize_eq (f : UnknownField) : f.serialize = Protobuf.varint f.tag ++ f.body := by
  cases f <;> rw [serialize, tagOf] <;> rfl

/-- The numbers that a field can have. -/
def IsNumber (number : Nat) : Prop := 0 < number ∧ number < 2 ^ 29

/-- A field that a parser can yield with `depth` levels of nesting left. -/
inductive WellFormed : Nat → UnknownField → Prop where
  | varint {depth number : Nat} {value : BitVec 64} (hn : IsNumber number) :
      WellFormed depth (.varint number value)
  | fixed64 {depth number : Nat} {value : List UInt8} (hn : IsNumber number)
      (hv : value.length = 8) : WellFormed depth (.fixed64 number value)
  | lengthDelimited {depth number : Nat} {value : List UInt8} (hn : IsNumber number)
      (hv : value.length ≤ maxSize) : WellFormed depth (.lengthDelimited number value)
  | group {depth number : Nat} {fields : List UnknownField} (hn : IsNumber number)
      (hf : ∀ f ∈ fields, WellFormed depth f) : WellFormed (depth + 1) (.group number fields)
  | fixed32 {depth number : Nat} {value : List UInt8} (hn : IsNumber number)
      (hv : value.length = 4) : WellFormed depth (.fixed32 number value)

variable {depth : Nat} {f : UnknownField}

theorem WellFormed.isNumber (h : f.WellFormed depth) : IsNumber f.number := by
  cases h <;> assumption

theorem wireType_cases (f : UnknownField) : f.wireType < 8 ∧ f.wireType ≠ 4 := by
  cases f <;> simp [wireType]

theorem tag_lt (h : IsNumber f.number) : f.tag < 2 ^ 32 := by
  have hw := f.wireType_cases.1
  have hn := h.2
  rw [tag]
  omega

theorem tag_div (f : UnknownField) : f.tag / 8 = f.number := by
  have hw := f.wireType_cases.1
  rw [tag]
  omega

theorem tag_mod (f : UnknownField) : f.tag % 8 = f.wireType := by
  have hw := f.wireType_cases.1
  rw [tag]
  omega

theorem isEndTag_tag (h : IsNumber f.number) : isEndTag f.tag = false := by
  have hn := h.1
  refine isEndTag_eq_false (fun h0 ↦ ?_) (f.tag_mod ▸ f.wireType_cases.2)
  rw [tag] at h0
  omega

end UnknownField

/-! ## Fields that are read back -/

section

variable {σ : Type u} {P : FieldParser σ} {m m' : σ} {rest : List UInt8}

/-- One unknown field, of any number. -/
theorem FieldParser.parse_serialize {f : UnknownField} (hf : UnknownField.IsNumber f.number)
    (hrun : P.run f.tag m (f.body ++ rest) = (m', some rest)) :
    P.parse m (f.serialize ++ rest) = P.parse m' rest := by
  rw [f.serialize_eq, List.append_assoc]
  exact FieldParser.parse_field (readTag_varint (UnknownField.tag_lt hf) _)
    (UnknownField.isEndTag_tag hf) hrun

/-- A sequence of unknown fields, which a message keeps by `add`. -/
theorem FieldParser.parse_serializeUnknownFields (add : σ → List UnknownField → σ)
    (us : List UnknownField) (rest : List UInt8) (hnil : ∀ m, add m [] = m)
    (hcons : ∀ m f us, add (add m [f]) us = add m (f :: us))
    (hnum : ∀ f ∈ us, UnknownField.IsNumber f.number)
    (hrun : ∀ f ∈ us, ∀ m rest, P.run f.tag m (f.body ++ rest) = (add m [f], some rest)) :
    P.parse m (serializeUnknownFields us ++ rest) = P.parse (add m us) rest := by
  induction us generalizing m with
  | nil => rw [hnil]; rfl
  | cons f us ih =>
      rw [serializeUnknownFields, List.append_assoc,
        FieldParser.parse_serialize (hnum f (by simp)) (hrun f (by simp) m _), ← hcons m f us]
      exact ih (fun g hg ↦ hnum g (by simp [hg])) fun g hg ↦ hrun g (by simp [hg])

end

namespace UnknownField

variable {depth : Nat} {f : UnknownField} {fields us : List UnknownField} {rest : List UInt8}

/-- The parser of unknown fields, where it does not matter how deep groups go. -/
theorem unknownFields_eq (depth : Nat) : ∃ g, unknownFields depth = unknownFieldsWith g := by
  cases depth with
  | zero => exact ⟨none, rfl⟩
  | succ depth => exact ⟨some (unknownFields depth), rfl⟩

theorem readFixed_all {n : Nat} {v : List UInt8} (hv : v.length = n) :
    readFixed n v = some (v, []) := by
  rw [readFixed, if_pos hv.ge, List.take_of_length_le hv.le, List.drop_of_length_le hv.le]

/-- A group whose fields are read up to its end. -/
theorem run_group {P : FieldParser (List UnknownField)} {number : Nat} (hn : IsNumber number)
    (hp : ∀ rest, P.parse [] (serializeUnknownFields us ++ (tagOf number 4 ++ rest)) =
      (us, .lastTag (number * 8 + 4) rest)) :
    (unknownFieldsWith (some P)).run (tag (.group number us)) fields
      (body (.group number us) ++ rest) = (fields ++ [.group number us], some rest) := by
  have hend : number * 8 + 4 = tag (.group number us) + 1 := rfl
  simp only [unknownFieldsWith, tag_div, tag_mod, UnknownField.number, wireType, hn.1.ne',
    if_false, body, List.append_assoc, hp, if_pos hend]

/-- **A well-formed field is read back**, whatever stands before and behind it. -/
theorem WellFormed.run_body (h : f.WellFormed depth) (fields : List UnknownField)
    (rest : List UInt8) :
    (unknownFields depth).run f.tag fields (f.body ++ rest) = (fields ++ [f], some rest) := by
  induction h generalizing fields rest with
  | @varint depth number value hn =>
      obtain ⟨g, hg⟩ := unknownFields_eq depth
      simp only [hg, unknownFieldsWith, tag_div, tag_mod, UnknownField.number, wireType, hn.1.ne',
        if_false, body, readVarint64_varint]
      rfl
  | @fixed64 depth number value hn hv =>
      obtain ⟨g, hg⟩ := unknownFields_eq depth
      simp only [hg, unknownFieldsWith, tag_div, tag_mod, UnknownField.number, wireType, hn.1.ne',
        if_false, body, readFixed_append (readFixed_all hv)]
      rfl
  | @lengthDelimited depth number value hn hv =>
      obtain ⟨g, hg⟩ := unknownFields_eq depth
      simp only [hg, unknownFieldsWith, tag_div, tag_mod, UnknownField.number, wireType, hn.1.ne',
        if_false, body, List.append_assoc, readBytes_varint hv]
      rfl
  | @group depth number us hn hf ih =>
      refine run_group hn fun rest ↦ ?_
      have hend : tagOf number 4 = Protobuf.varint (number * 8 + 4) := rfl
      have hlt : number * 8 + 4 < 2 ^ 32 := by have := hn.2; omega
      rw [FieldParser.parse_serializeUnknownFields (· ++ ·) us _ List.append_nil (by simp)
          (fun f h ↦ (hf f h).isNumber) ih, List.nil_append, hend,
        FieldParser.parse_endTag (readTag_varint hlt _) (isEndTag_end number)]
  | @fixed32 depth number value hn hv =>
      obtain ⟨g, hg⟩ := unknownFields_eq depth
      simp only [hg, unknownFieldsWith, tag_div, tag_mod, UnknownField.number, wireType, hn.1.ne',
        if_false, body, readFixed_append (readFixed_all hv)]
      rfl

/-! ## What a parser yields -/

theorem length_of_readFixed {n : Nat} {v s : List UInt8} (h : readFixed n s = some (v, rest)) :
    v.length = n := by
  rw [readFixed] at h
  split at h
  · cases h
    exact List.length_take_of_le ‹_›
  · cases h

theorem length_of_readBytes {v s : List UInt8} (h : readBytes s = some (v, rest)) :
    v.length ≤ maxSize := by
  obtain ⟨r, hr, hf⟩ := Option.bind_eq_some_iff.mp h
  rw [length_of_readFixed hf]
  simpa using (Option.filter_eq_some_iff.mp hr).2

/-- `P` yields well-formed fields only, one for each tag. -/
def YieldsWellFormed (depth : Nat) (P : FieldParser (List UnknownField)) : Prop :=
  ∀ {tag : Nat} {fields fields' : List UnknownField} {bytes rest : List UInt8}, tag < 2 ^ 32 →
    P.run tag fields bytes = (fields', some rest) →
      ∃ f : UnknownField, fields' = fields ++ [f] ∧ f.tag = tag ∧ f.WellFormed depth

theorem YieldsWellFormed.parse {P : FieldParser (List UnknownField)}
    (hP : YieldsWellFormed depth P) {bytes : List UInt8} {out : Outcome}
    (h : P.parse [] bytes = (us, out)) (hout : out ≠ .failed) : ∀ f ∈ us, f.WellFormed depth := by
  refine FieldParser.parse_invariant (I := fun us ↦ ∀ f ∈ us, f.WellFormed depth) ?_ nofun h hout
  intro tag us bytes us' rest htag _ hus hr g hg
  obtain ⟨f, rfl, _, hf⟩ := hP htag hr
  rcases List.mem_append.mp hg with hg | hg
  · exact hus g hg
  · rw [List.mem_singleton.mp hg]
    exact hf

theorem yieldsWellFormed_with {g : Option (FieldParser (List UnknownField))}
    (hg : ∀ P, g = some P → ∃ d, depth = d + 1 ∧ YieldsWellFormed d P) :
    YieldsWellFormed depth (unknownFieldsWith g) := by
  intro tag fields fields' bytes rest htag h
  simp only [unknownFieldsWith] at h
  split at h
  · cases h
  · rename_i hne
    have hn : IsNumber (tag / 8) := ⟨Nat.pos_of_ne_zero hne, by omega⟩
    have htag' {w : Nat} (hw : tag % 8 = w) : tag / 8 * 8 + w = tag := by omega
    split at h
    · rename_i hw
      obtain ⟨v, _, rfl⟩ := exists_of_readInto h
      exact ⟨_, rfl, htag' hw, .varint hn⟩
    · rename_i hw
      obtain ⟨v, hr, rfl⟩ := exists_of_readInto h
      exact ⟨_, rfl, htag' hw, .fixed64 hn (length_of_readFixed hr)⟩
    · rename_i hw
      obtain ⟨v, hr, rfl⟩ := exists_of_readInto h
      exact ⟨_, rfl, htag' hw, .lengthDelimited hn (length_of_readBytes hr)⟩
    · rename_i hw
      split at h
      · cases h
      · rename_i P
        obtain ⟨d, rfl, hP⟩ := hg P rfl
        split at h
        · rename_i hp
          cases (Prod.mk.inj h).1
          exact ⟨_, rfl, htag' hw, .group hn (hP.parse hp (by simp))⟩
        · cases h
    · rename_i hw
      obtain ⟨v, hr, rfl⟩ := exists_of_readInto h
      exact ⟨_, rfl, htag' hw, .fixed32 hn (length_of_readFixed hr)⟩
    · cases h

/-- **A parser yields well-formed fields only**, one for each tag. -/
theorem yieldsWellFormed (depth : Nat) : YieldsWellFormed depth (unknownFields depth) := by
  induction depth with
  | zero => exact yieldsWellFormed_with (by simp)
  | succ depth ih =>
      refine yieldsWellFormed_with fun P hP ↦ ?_
      cases hP
      exact ⟨depth, rfl, ih⟩

end UnknownField

end CppExamples.Lib.Protobuf
