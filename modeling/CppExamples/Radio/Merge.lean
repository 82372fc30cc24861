import CppExamples.Lib.Protobuf.Merge
import CppExamples.Radio.RoundTrip

/-!
# Merging phones and phone lists

`Clear`, `MergeFrom` and `CopyFrom` of the two messages of `radio.proto`, and
what they have to do with their bytes.

* A parser yields well-formed messages, which may hold fields that `radio.proto`
  does not define, in the phones and in their timestamps as well.
* Parsing what a well-formed message was written as is merging it into the
  message that the parser starts with.  For a new message this is the round
  trip: nothing gets lost when a program reads a list and writes it again, not
  even the fields that only a later version of `radio.proto` knows.
* Lists can be concatenated as bytes.  If one file parses, then what another one
  behind it adds is what `MergeFrom` adds, and they fail or succeed together.
-/

namespace CppExamples.Radio

open CppExamples.Lib.Protobuf

variable {depth tag : Nat} {bytes rest : List UInt8}

namespace Phone

/-! ## Phones -/

/-- `MergeFrom` of the message in the field `created`. -/
def mergedCreated (old : Option Timestamp) : Option Timestamp → Option Timestamp
  | none => old
  | some t => some ((old.getD .empty).mergeFrom t)

/-- `Phone::MergeFrom` -/
def mergeFrom (p other : Phone) : Phone where
  name := merged [] p.name other.name
  created := mergedCreated p.created other.created
  id := merged 0 p.id other.id
  network := merged 0 p.network other.network
  active := merged false p.active other.active
  type := merged 0 p.type other.type
  unknownFields := p.unknownFields ++ other.unknownFields

/-- `Phone::Clear` -/
def clear (p : Phone) : Phone :=
  { p with name := [], created := none, id := 0, network := 0, active := false, type := 0,
           unknownFields := [] }

/-- `Phone::CopyFrom`, from another phone. -/
def copyFrom (p other : Phone) : Phone := p.clear.mergeFrom other

theorem empty_mergeFrom (p : Phone) : empty.mergeFrom p = p := by
  obtain ⟨id, name, network, active, type, created, unknown⟩ := p
  cases created <;> simp [mergeFrom, mergedCreated, empty, Timestamp.empty_mergeFrom]

theorem mergeFrom_empty (p : Phone) : p.mergeFrom empty = p := by
  simp [mergeFrom, mergedCreated, empty]

theorem mergeFrom_assoc (p q r : Phone) :
    (p.mergeFrom q).mergeFrom r = p.mergeFrom (q.mergeFrom r) := by
  have hcreated : mergedCreated (mergedCreated p.created q.created) r.created =
      mergedCreated p.created (mergedCreated q.created r.created) := by
    cases hr : r.created with
    | none => rfl
    | some t =>
        cases hq : q.created with
        | none => simp [mergedCreated, Timestamp.empty_mergeFrom]
        | some u => simp [mergedCreated, Timestamp.mergeFrom_assoc]
  simp [mergeFrom, merged_assoc, hcreated]

/-- A copy is equal to what it is a copy of, unknown fields included. -/
theorem copyFrom_eq (p other : Phone) : p.copyFrom other = other := empty_mergeFrom other

/-- The tags that the `switch` of `Phone::_InternalParse` looks for. -/
def knownTags : List Nat := [8, 18, 24, 32, 40, 50]

/-- A phone that a parser can yield. -/
structure WellFormed (depth : Nat) (p : Phone) : Prop where
  name : isUtf8 p.name = true
  created : ∀ t, p.created = some t → t.WellFormed depth
  unknownFields : Kept knownTags (depth + 1) p.unknownFields

theorem WellFormed.empty : WellFormed depth empty := ⟨rfl, nofun, .nil⟩

theorem fields_run_unknown (htag : tag ∉ knownTags) (p : Phone) (bytes : List UInt8) :
    (fields depth).run tag p bytes =
      parseUnknown depth tag p.unknownFields bytes fun u ↦ { p with unknownFields := u } := by
  simp only [fields]
  split
  · exact absurd htag (by decide)
  · exact absurd htag (by decide)
  · exact absurd htag (by decide)
  · exact absurd htag (by decide)
  · exact absurd htag (by decide)
  · exact absurd htag (by decide)
  · rfl

/-- A parser keeps a phone well-formed. -/
theorem WellFormed.run {p p' : Phone} (hp : p.WellFormed depth) (htag : tag < 2 ^ 32)
    (h : (fields (depth + 1)).run tag p bytes = (p', some rest)) : p'.WellFormed depth := by
  by_cases hk : tag ∈ knownTags
  · obtain rfl | rfl | rfl | rfl | rfl | rfl :
        tag = 8 ∨ tag = 18 ∨ tag = 24 ∨ tag = 32 ∨ tag = 40 ∨ tag = 50 := by
      simpa [knownTags] using hk
    · obtain ⟨v, _, rfl⟩ := exists_of_readInto h
      exact ⟨hp.name, hp.created, hp.unknownFields⟩
    · simp only [fields] at h
      split at h
      · cases h
      · rename_i str rest' _
        obtain ⟨rfl, h⟩ := Prod.mk.inj h
        split at h
        · exact ⟨‹_›, hp.created, hp.unknownFields⟩
        · cases h
    · obtain ⟨v, _, rfl⟩ := exists_of_readInto h
      exact ⟨hp.name, hp.created, hp.unknownFields⟩
    · obtain ⟨v, _, rfl⟩ := exists_of_readInto h
      exact ⟨hp.name, hp.created, hp.unknownFields⟩
    · obtain ⟨v, _, rfl⟩ := exists_of_readInto h
      exact ⟨hp.name, hp.created, hp.unknownFields⟩
    · simp only [fields, Prod.mk.injEq] at h
      obtain ⟨rfl, h⟩ := h
      refine ⟨hp.name, fun t ht ↦ ?_, hp.unknownFields⟩
      obtain ⟨v, hv⟩ := exists_parse_of_parseMessage (Prod.ext rfl h)
      cases ht
      refine FieldParser.parse_invariant (fun htag _ ht h ↦ ht.run htag h) ?_ hv (by simp)
      cases hc : p.created with
      | none => exact Kept.nil
      | some t => exact hp.created t hc
  · rw [fields_run_unknown hk] at h
    obtain ⟨us, rfl, hus⟩ := hp.unknownFields.parseUnknown htag hk h
    exact ⟨hp.name, hp.created, hus⟩

/-! ## The fields of a phone

Each field is merged into what the phone holds. -/

section

variable (p : Phone) (rest : List UInt8)

theorem parse_merged_id (v : BitVec 32) :
    (fields depth).parse p (fieldBytes (v ≠ 0) 8 (varint v.toNat) ++ rest) =
      (fields depth).parse { p with id := merged 0 p.id v } rest :=
  FieldParser.parse_fieldBytes _ (by decide)
    (fun h ↦ by rw [merged_set h]; simp [fields, readInto, readVarint32_varint])
    (fun h ↦ by rw [not_ne_iff.mp h, merged_unset])

theorem parse_merged_name {v : List UInt8} (hv : isUtf8 v = true) (hl : v.length ≤ maxSize) :
    (fields depth).parse p (fieldBytes (v ≠ []) 18 (varint v.length ++ v) ++ rest) =
      (fields depth).parse { p with name := merged [] p.name v } rest :=
  FieldParser.parse_fieldBytes _ (by decide)
    (fun h ↦ by rw [merged_set h]; simp [fields, readBytes_varint hl, hv])
    (fun h ↦ by rw [not_ne_iff.mp h, merged_unset])

theorem parse_merged_network (v : PhoneNetwork) :
    (fields depth).parse p (fieldBytes (v ≠ 0) 24 (varintInt32 v) ++ rest) =
      (fields depth).parse { p with network := merged 0 p.network v } rest :=
  FieldParser.parse_fieldBytes _ (by decide)
    (fun h ↦ by rw [merged_set h]; simp [fields, readInto, readInt32_varintInt32])
    (fun h ↦ by rw [not_ne_iff.mp h, merged_unset])

theorem parse_merged_active (v : Bool) :
    (fields depth).parse p (fieldBytes (v = true) 32 (varint 1) ++ rest) =
      (fields depth).parse { p with active := merged false p.active v } rest :=
  FieldParser.parse_fieldBytes _ (by decide)
    (fun h ↦ by
      have hone : readVarint64 (varint 1 ++ rest) = some (1, rest) := readVarint64_varint 1 rest
      simp [fields, readInto, h, hone, merged])
    (fun h ↦ by rw [Bool.eq_false_iff.mpr h, merged_unset])

theorem parse_merged_type (v : PhoneType) :
    (fields depth).parse p (fieldBytes (v ≠ 0) 40 (varintInt32 v) ++ rest) =
      (fields depth).parse { p with type := merged 0 p.type v } rest :=
  FieldParser.parse_fieldBytes _ (by decide)
    (fun h ↦ by rw [merged_set h]; simp [fields, readInto, readInt32_varintInt32])
    (fun h ↦ by rw [not_ne_iff.mp h, merged_unset])

theorem parse_merged_created {v : Option Timestamp} (hv : ∀ t, v = some t → t.WellFormed depth)
    (hl : ∀ t, v = some t → t.byteSizeLong ≤ maxSize) :
    (fields (depth + 1)).parse p
        (fieldBytes (v.isSome = true) 50 (createdBytes (v.getD .empty)) ++ rest) =
      (fields (depth + 1)).parse { p with created := mergedCreated p.created v } rest :=
  FieldParser.parse_fieldBytes _ (by decide)
    (fun h ↦ by
      obtain ⟨t, rfl⟩ := Option.isSome_iff_exists.mp h
      have hparse := parseMessage_varint (t.length_internalSerialize.trans_le (hl t rfl))
        (Timestamp.parse_mergeFrom (hv t rfl) (p.created.getD .empty)) rest
      rw [t.length_internalSerialize] at hparse
      simp [fields, createdBytes, hparse, mergedCreated])
    (fun h ↦ by rw [Option.not_isSome_iff_eq_none.mp h]; rfl)

end

/-- **Parsing what a phone was written as is merging it.** -/
theorem parse_mergeFrom {p : Phone} (hp : p.WellFormed depth) (hs : p.byteSizeLong ≤ maxSize)
    (p₀ : Phone) :
    (fields (depth + 1)).parse p₀ p.internalSerialize = (p₀.mergeFrom p, .atLimit) := by
  have hname : p.name.length ≤ maxSize := p.length_name_le.trans hs
  have hcreated : ∀ t, p.created = some t → t.byteSizeLong ≤ maxSize :=
    fun t ht ↦ (byteSizeLong_created_le ht).trans hs
  rw [internalSerialize, parse_merged_id, parse_merged_name _ _ hp.name hname,
    parse_merged_network, parse_merged_active, parse_merged_type,
    parse_merged_created _ _ hp.created hcreated]
  exact hp.unknownFields.parse_serialize (·.unknownFields)
    (fun p u ↦ { p with unknownFields := u })
    (fun tag m bytes hk ↦ fields_run_unknown hk m bytes) (fun _ _ ↦ rfl) (fun _ _ _ ↦ rfl)
    fun _ ↦ rfl

theorem fields_local (depth : Nat) : (fields depth).Local := by
  intro tag p p' s rest h more
  simp only [fields] at h ⊢
  split at h
  · exact readInto_append readVarint32_append h more
  · cases hr : readBytes s with
    | none =>
        rw [hr] at h
        cases h
    | some r =>
        simp only [hr, Prod.mk.injEq] at h
        obtain ⟨rfl, h⟩ := h
        split at h
        · rename_i hutf
          cases h
          simp only [readBytes_append hr, if_pos hutf]
        · cases h
  · exact readInto_append readInt32_append h more
  · exact readInto_append readVarint64_append h more
  · exact readInto_append readInt32_append h more
  · simp only [Prod.mk.injEq] at h
    obtain ⟨rfl, h⟩ := h
    simp only [parseMessage_append (Prod.ext rfl h) more]
  · exact parseUnknown_append h more

/-- **One phone behind the other is the first one, merged with the second.** -/
theorem parse_append_internalSerialize {p q : Phone} (hp : p.WellFormed depth)
    (hq : q.WellFormed depth) (hps : p.byteSizeLong ≤ maxSize) (hqs : q.byteSizeLong ≤ maxSize) :
    (fields (depth + 1)).parse empty (p.internalSerialize ++ q.internalSerialize) =
      (p.mergeFrom q, .atLimit) := by
  have hfirst := parse_mergeFrom hp hps empty
  rw [empty_mergeFrom] at hfirst
  rw [FieldParser.parse_append (fields_local _) hfirst, parse_mergeFrom hq hqs]

/-- A phone with an `id`, and one with a `name` and an unknown field. -/
theorem parse_append_ab :
    let p : Phone := { empty with id := 5 }
    let q : Phone := { empty with name := [97, 98], unknownFields := [.varint 7 1] }
    (fields 1).parse empty (p.internalSerialize ++ q.internalSerialize) =
      (p.mergeFrom q, .atLimit) := by
  have hkept : Kept knownTags 1 [.varint 7 1] := by
    intro f hf
    rw [List.mem_singleton.mp hf]
    exact ⟨.varint ⟨by decide, by decide⟩, by decide⟩
  exact parse_append_internalSerialize ⟨rfl, nofun, .nil⟩ ⟨rfl, nofun, hkept⟩ (by decide)
    (by decide)

end Phone

namespace PhoneList

/-! ## Phone lists -/

/-- `PhoneList::MergeFrom` -/
def mergeFrom (l other : PhoneList) : PhoneList where
  phones := l.phones ++ other.phones
  unknownFields := l.unknownFields ++ other.unknownFields

/-- `PhoneList::Clear` -/
def clear (l : PhoneList) : PhoneList := { l with phones := [], unknownFields := [] }

/-- `PhoneList::CopyFrom`, from another list. -/
def copyFrom (l other : PhoneList) : PhoneList := l.clear.mergeFrom other

theorem empty_mergeFrom (l : PhoneList) : empty.mergeFrom l = l := rfl

theorem mergeFrom_empty (l : PhoneList) : l.mergeFrom empty = l := by
  simp [mergeFrom, empty]

theorem mergeFrom_assoc (k l m : PhoneList) :
    (k.mergeFrom l).mergeFrom m = k.mergeFrom (l.mergeFrom m) := by
  simp [mergeFrom]

theorem copyFrom_eq (l other : PhoneList) : l.copyFrom other = other := empty_mergeFrom other

/-- A list that a parser can yield. -/
structure WellFormed (depth : Nat) (l : PhoneList) : Prop where
  phones : ∀ p ∈ l.phones, p.WellFormed depth
  unknownFields : Kept [10] (depth + 2) l.unknownFields

theorem WellFormed.empty : WellFormed depth empty := ⟨nofun, .nil⟩

theorem fields_run_unknown (htag : tag ∉ [10]) (l : PhoneList) (bytes : List UInt8) :
    (fields depth).run tag l bytes =
      parseUnknown depth tag l.unknownFields bytes fun u ↦ { l with unknownFields := u } := by
  simp only [fields]
  split
  · exact absurd htag (by decide)
  · rfl

/-- A parser keeps a list well-formed. -/
theorem WellFormed.run {l l' : PhoneList} (hl : l.WellFormed depth) (htag : tag < 2 ^ 32)
    (h : (fields (depth + 2)).run tag l bytes = (l', some rest)) : l'.WellFormed depth := by
  by_cases hk : tag ∈ [10]
  · obtain rfl := List.mem_singleton.mp hk
    simp only [fields, Prod.mk.injEq] at h
    obtain ⟨rfl, h⟩ := h
    refine ⟨fun p hp ↦ ?_, hl.unknownFields⟩
    rcases List.mem_append.mp hp with hp | hp
    · exact hl.phones p hp
    · obtain ⟨v, hv⟩ := exists_parse_of_parseMessage (Prod.ext rfl h)
      rw [List.mem_singleton.mp hp]
      exact FieldParser.parse_invariant (fun htag _ hp h ↦ hp.run htag h) .empty hv (by simp)
  · rw [fields_run_unknown hk] at h
    obtain ⟨us, rfl, hus⟩ := hl.unknownFields.parseUnknown htag hk h
    exact ⟨hl.phones, hus⟩

theorem parse_of_parseFrom {l : PhoneList} (h : parseFrom bytes = (l, true)) :
    (fields recursionLimit).parse .empty bytes = (l, .atLimit) := by
  obtain ⟨hl, hout⟩ := Prod.mk.inj h
  exact Prod.ext hl (of_decide_eq_true hout)

/-- Whatever parses is well-formed. -/
theorem wellFormed_of_parseFrom {l : PhoneList} (h : parseFrom bytes = (l, true)) :
    l.WellFormed 98 :=
  FieldParser.parse_invariant (fun htag _ hl h ↦ hl.run htag h) .empty (parse_of_parseFrom h)
    (by simp)

/-- A phone is added to the list. -/
theorem run_wellFormed_phone {p : Phone} (hp : p.WellFormed depth) (hs : p.byteSizeLong ≤ maxSize)
    (l : PhoneList) (rest : List UInt8) :
    (fields (depth + 2)).run 10 l (varint p.byteSizeLong ++ (p.internalSerialize ++ rest)) =
      ({ l with phones := l.phones ++ [p] }, some rest) := by
  have hparse := parseMessage_varint (P := Phone.fields) (p.length_internalSerialize.trans_le hs)
    (Phone.parse_mergeFrom hp hs .empty) rest
  rw [p.length_internalSerialize, Phone.empty_mergeFrom] at hparse
  simp [fields, hparse]

/-- Phones are added to the list, one after the other. -/
theorem parse_wellFormed_phones {ps : List Phone} (hp : ∀ p ∈ ps, p.WellFormed depth)
    (hs : ∀ p ∈ ps, p.byteSizeLong ≤ maxSize) (l : PhoneList) (rest : List UInt8) :
    (fields (depth + 2)).parse l (ps.flatMap phoneBytes ++ rest) =
      (fields (depth + 2)).parse { l with phones := l.phones ++ ps } rest := by
  induction ps generalizing l with
  | nil => simp
  | cons p ps ih =>
      have hrun := run_wellFormed_phone (hp p (by simp)) (hs p (by simp)) l
        (ps.flatMap phoneBytes ++ rest)
      rw [List.flatMap_cons, phoneBytes, List.append_assoc, List.cons_append, List.append_assoc,
        FieldParser.parse_cons (by decide) hrun,
        ih (fun q hq ↦ hp q (by simp [hq])) fun q hq ↦ hs q (by simp [hq])]
      simp

/-- **Parsing what a list was written as is merging it.** -/
theorem parse_mergeFrom {l : PhoneList} (hl : l.WellFormed depth)
    (hs : ∀ p ∈ l.phones, p.byteSizeLong ≤ maxSize) (l₀ : PhoneList) :
    (fields (depth + 2)).parse l₀ l.internalSerialize = (l₀.mergeFrom l, .atLimit) := by
  rw [internalSerialize, parse_wellFormed_phones hl.phones hs]
  exact hl.unknownFields.parse_serialize (·.unknownFields)
    (fun p u ↦ { p with unknownFields := u })
    (fun tag m bytes hk ↦ fields_run_unknown hk m bytes) (fun _ _ ↦ rfl) (fun _ _ _ ↦ rfl)
    fun _ ↦ rfl

/-- **What has been parsed can be written and parsed again**, and is the same,
unknown fields included. -/
theorem parseFrom_rewritten {l : PhoneList} (h : parseFrom bytes = (l, true))
    (hs : ∀ p ∈ l.phones, p.byteSizeLong ≤ maxSize) :
    parseFrom l.internalSerialize = (l, true) := by
  have hparse : (fields recursionLimit).parse .empty l.internalSerialize = _ :=
    parse_mergeFrom (wellFormed_of_parseFrom h) hs .empty
  rw [parseFrom, hparse]
  rfl

/-- A list of one phone that has an `id`, a timestamp with a field `3` and a field
`7`; `radio.proto` defines neither of these fields. -/
def newerBytes : List UInt8 := [10, 10, 8, 5, 50, 4, 8, 1, 24, 9, 56, 1]

/-- The list that is parsed from them. -/
def newerList : PhoneList :=
  ⟨[{ Phone.empty with
      id := 5, created := some ⟨1, 0, [.varint 3 9]⟩, unknownFields := [.varint 7 1] }], []⟩

theorem parseFrom_rewritten_newer :
    parseFrom newerList.internalSerialize = (newerList, true) := by
  have hparse : parseFrom newerBytes = (newerList, true) := rfl
  refine parseFrom_rewritten hparse fun p hp ↦ ?_
  rw [List.mem_singleton.mp hp]
  decide

theorem fields_local (depth : Nat) : (fields depth).Local := by
  intro tag l l' s rest h more
  simp only [fields] at h ⊢
  split at h
  · simp only [Prod.mk.injEq] at h
    obtain ⟨rfl, h⟩ := h
    simp only [parseMessage_append (Prod.ext rfl h) more]
  · exact parseUnknown_append h more

/-- What is parsed into a list is merged into it. -/
theorem parse_eq_mergeFrom (l₀ : PhoneList) (bytes : List UInt8) :
    (fields depth).parse l₀ bytes =
      ((fields depth).parse empty bytes).map l₀.mergeFrom id := by
  have hrun (tag : Nat) (l : PhoneList) (s : List UInt8) :
      (fields depth).run tag (l₀.mergeFrom l) s =
        ((fields depth).run tag l s).map l₀.mergeFrom id := by
    simp only [fields]
    split
    · simp [mergeFrom]
    · simp [parseUnknown, mergeFrom, run_unknownFields_append]
  have := FieldParser.parse_map hrun empty bytes
  rwa [mergeFrom_empty] at this

/-- **Files can be concatenated.**  If one of them parses, the other one behind
it adds what `MergeFrom` adds, and decides whether both of them parse. -/
theorem parseFrom_append {l : PhoneList} (h : parseFrom bytes = (l, true)) (more : List UInt8) :
    parseFrom (bytes ++ more) = (parseFrom more).map l.mergeFrom id := by
  rw [parseFrom, FieldParser.parse_append (fields_local _) (parse_of_parseFrom h) more,
    parse_eq_mergeFrom]
  rfl

theorem parseFrom_append_newer :
    parseFrom (newerBytes ++ newerBytes) = (parseFrom newerBytes).map newerList.mergeFrom id :=
  parseFrom_append rfl newerBytes

end PhoneList

end CppExamples.Radio
