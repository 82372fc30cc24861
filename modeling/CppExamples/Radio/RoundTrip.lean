import CppExamples.Radio.Phone
import Mathlib.Algebra.Order.BigOperators.Group.List

/-!
# Reading back what was written

A phone list that is written can be parsed exactly if every phone of it is
`Readable`: its name is UTF-8, which the serialiser does not insist on, and it
is no longer than a parser allows.  In that case the parse yields the list
itself.  One phone that is not readable makes the whole list unreadable.

The lists meant here are those of the fields of `radio.proto`, with no unknown
fields (`Plain`).
-/

namespace CppExamples.Radio

open CppExamples.Lib.Protobuf

namespace Phone

/-- Only the fields of `radio.proto`. -/
structure Plain (p : Phone) : Prop where
  unknownFields : p.unknownFields = []
  created : ∀ t, p.created = some t → t.unknownFields = []

/-- What a parser accepts of a phone. -/
structure Readable (p : Phone) : Prop where
  name : isUtf8 p.name = true
  size : p.byteSizeLong ≤ maxSize

instance (p : Phone) : Decidable p.Readable :=
  decidable_of_iff (isUtf8 p.name = true ∧ p.byteSizeLong ≤ maxSize)
    ⟨fun h ↦ ⟨h.1, h.2⟩, fun h ↦ ⟨h.1, h.2⟩⟩

variable {p : Phone} {depth : Nat}

/-- The size that is computed before the message is written. -/
theorem length_internalSerialize (p : Phone) : p.internalSerialize.length = p.byteSizeLong := by
  obtain ⟨id, name, network, active, type, created, unknown⟩ := p
  have hbool : (varint 1).length = 1 := by decide
  cases created with
  | none =>
      simp only [internalSerialize, byteSizeLong, List.length_append, length_fieldBytes,
        varintInt32, varintSize, hbool, Option.isSome_none]
      simp
      omega
  | some t =>
      simp only [internalSerialize, byteSizeLong, List.length_append, length_fieldBytes,
        varintInt32, varintSize, hbool, Option.isSome_some, Option.getD_some, createdBytes,
        Timestamp.length_internalSerialize]
      simp
      omega

theorem length_name_le (p : Phone) : p.name.length ≤ p.byteSizeLong := by
  by_cases h : p.name = []
  · simp [h]
  · simp only [byteSizeLong, ne_eq, h, not_false_eq_true, if_true]
    omega

theorem byteSizeLong_created_le {t : Timestamp} (h : p.created = some t) :
    t.byteSizeLong ≤ p.byteSizeLong := by
  simp only [byteSizeLong, h]
  omega

/-! ## The fields of a phone

Each field is parsed into a phone that has the default there. -/

section

variable {i : BitVec 32} {n : List UInt8} {w : PhoneNetwork} {a : Bool} {t : PhoneType}
  {c : Option Timestamp} {u : List UnknownField} (rest : List UInt8)

theorem parse_id (v : BitVec 32) :
    (fields depth).parse ⟨0, n, w, a, t, c, u⟩ (fieldBytes (v ≠ 0) 8 (varint v.toNat) ++ rest) =
      (fields depth).parse ⟨v, n, w, a, t, c, u⟩ rest :=
  FieldParser.parse_fieldBytes _ (by decide)
    (fun _ ↦ by simp [fields, readInto, readVarint32_varint])
    (fun h ↦ by rw [not_ne_iff.mp h])

theorem parse_name {v : List UInt8} (hv : isUtf8 v = true) (hl : v.length ≤ maxSize) :
    (fields depth).parse ⟨i, [], w, a, t, c, u⟩
        (fieldBytes (v ≠ []) 18 (varint v.length ++ v) ++ rest) =
      (fields depth).parse ⟨i, v, w, a, t, c, u⟩ rest :=
  FieldParser.parse_fieldBytes _ (by decide)
    (fun _ ↦ by simp [fields, readBytes_varint hl, hv])
    (fun h ↦ by rw [not_ne_iff.mp h])

theorem parse_network (v : PhoneNetwork) :
    (fields depth).parse ⟨i, n, 0, a, t, c, u⟩ (fieldBytes (v ≠ 0) 24 (varintInt32 v) ++ rest) =
      (fields depth).parse ⟨i, n, v, a, t, c, u⟩ rest :=
  FieldParser.parse_fieldBytes _ (by decide)
    (fun _ ↦ by simp [fields, readInto, readInt32_varintInt32])
    (fun h ↦ by rw [not_ne_iff.mp h])

theorem parse_active (v : Bool) :
    (fields depth).parse ⟨i, n, w, false, t, c, u⟩ (fieldBytes (v = true) 32 (varint 1) ++ rest) =
      (fields depth).parse ⟨i, n, w, v, t, c, u⟩ rest :=
  FieldParser.parse_fieldBytes _ (by decide)
    (fun h ↦ by
      have hone : readVarint64 (varint 1 ++ rest) = some (1, rest) := readVarint64_varint 1 rest
      simp [fields, readInto, h, hone])
    (fun h ↦ by rw [Bool.eq_false_iff.mpr h])

theorem parse_type (v : PhoneType) :
    (fields depth).parse ⟨i, n, w, a, 0, c, u⟩ (fieldBytes (v ≠ 0) 40 (varintInt32 v) ++ rest) =
      (fields depth).parse ⟨i, n, w, a, v, c, u⟩ rest :=
  FieldParser.parse_fieldBytes _ (by decide)
    (fun _ ↦ by simp [fields, readInto, readInt32_varintInt32])
    (fun h ↦ by rw [not_ne_iff.mp h])

theorem parse_created {v : Option Timestamp} (hu : ∀ t, v = some t → t.unknownFields = [])
    (hl : ∀ t, v = some t → t.byteSizeLong ≤ maxSize) :
    (fields (depth + 1)).parse ⟨i, n, w, a, t, none, u⟩
        (fieldBytes (v.isSome = true) 50 (createdBytes (v.getD .empty)) ++ rest) =
      (fields (depth + 1)).parse ⟨i, n, w, a, t, v, u⟩ rest :=
  FieldParser.parse_fieldBytes _ (by decide)
    (fun h ↦ by
      obtain ⟨t, rfl⟩ := Option.isSome_iff_exists.mp h
      have hlen : t.internalSerialize.length ≤ maxSize :=
        t.length_internalSerialize.trans_le (hl t rfl)
      have := parseMessage_varint hlen
        (Timestamp.parse_internalSerialize (hu t rfl) depth) rest
      rw [t.length_internalSerialize] at this
      simp [fields, createdBytes, this])
    (fun h ↦ by rw [Option.not_isSome_iff_eq_none.mp h])

end

/-- **A readable phone is read back.** -/
theorem parse_internalSerialize (hp : p.Plain) (hr : p.Readable) (depth : Nat) :
    (fields (depth + 1)).parse empty p.internalSerialize = (p, .atLimit) := by
  have hname : p.name.length ≤ maxSize := p.length_name_le.trans hr.size
  have hcreated : ∀ t, p.created = some t → t.byteSizeLong ≤ maxSize :=
    fun t ht ↦ (byteSizeLong_created_le ht).trans hr.size
  have hlast : serializeUnknownFields p.unknownFields = [] := by rw [hp.unknownFields]; rfl
  rw [internalSerialize, empty, parse_id, parse_name _ hr.name hname, parse_network, parse_active,
    parse_type, parse_created _ hp.created hcreated, hlast, FieldParser.parse_nil,
    ← hp.unknownFields]

/-- A phone whose name is not UTF-8 fails to parse. -/
theorem parse_internalSerialize_failed (hn : isUtf8 p.name = false) (hs : p.byteSizeLong ≤ maxSize)
    (depth : Nat) : ((fields depth).parse empty p.internalSerialize).2 = .failed := by
  have hne : p.name ≠ [] := by
    intro h
    rw [h] at hn
    cases hn
  have hrun (rest : List UInt8) : (fields depth).run 18 ⟨p.id, [], 0, false, 0, none, []⟩
      (varint p.name.length ++ (p.name ++ rest)) =
        (⟨p.id, p.name, 0, false, 0, none, []⟩, none) := by
    simp [fields, readBytes_varint (p.length_name_le.trans hs), hn]
  rw [internalSerialize, empty, parse_id, fieldBytes, if_pos hne, List.cons_append,
    List.append_assoc, FieldParser.parse_cons_bad (by decide) (hrun _)]

end Phone

namespace PhoneList

/-- Only the fields of `radio.proto`. -/
structure Plain (l : PhoneList) : Prop where
  unknownFields : l.unknownFields = []
  phones : ∀ p ∈ l.phones, p.Plain

variable {l : PhoneList} {depth : Nat}

theorem length_phoneBytes (p : Phone) :
    (phoneBytes p).length = 1 + (varintSize p.byteSizeLong + p.byteSizeLong) := by
  simp only [phoneBytes, List.length_cons, List.length_append, p.length_internalSerialize,
    varintSize]
  omega

/-- The size that is computed before the list is written. -/
theorem length_internalSerialize (l : PhoneList) :
    l.internalSerialize.length = l.byteSizeLong := by
  have hphones (ps : List Phone) : (ps.flatMap phoneBytes).length =
      ps.length + (ps.map fun p ↦ varintSize p.byteSizeLong + p.byteSizeLong).sum := by
    induction ps with
    | nil => rfl
    | cons p ps ih =>
        rw [List.flatMap_cons, List.length_append, ih, length_phoneBytes, List.map_cons,
          List.sum_cons, List.length_cons]
        omega
  rw [internalSerialize, List.length_append, hphones, byteSizeLong]

/-- No phone is longer than the list it is in. -/
theorem byteSizeLong_le_of_mem {p : Phone} (h : p ∈ l.phones) :
    p.byteSizeLong ≤ l.byteSizeLong := by
  have hs := List.le_sum_of_mem
    (List.mem_map_of_mem (f := fun p : Phone ↦ varintSize p.byteSizeLong + p.byteSizeLong) h)
  simp only [byteSizeLong]
  omega

/-! ## The phones of a list -/

/-- A readable phone is added to the list. -/
theorem parse_phone {p : Phone} (hp : p.Plain) (hr : p.Readable) (rest : List UInt8) :
    (fields (depth + 2)).parse l (phoneBytes p ++ rest) =
      (fields (depth + 2)).parse { l with phones := l.phones ++ [p] } rest := by
  have hlen : p.internalSerialize.length ≤ maxSize := p.length_internalSerialize.trans_le hr.size
  have hrun : (fields (depth + 2)).run 10 l
      (varint p.byteSizeLong ++ (p.internalSerialize ++ rest)) =
        ({ l with phones := l.phones ++ [p] }, some rest) := by
    have := parseMessage_varint hlen (Phone.parse_internalSerialize hp hr depth) rest
    rw [p.length_internalSerialize] at this
    simp [fields, this]
  rw [phoneBytes, List.cons_append, List.append_assoc]
  exact FieldParser.parse_cons (by decide) hrun

/-- Readable phones are added to the list, one after the other. -/
theorem parse_phones {ps : List Phone} (hp : ∀ p ∈ ps, p.Plain) (hr : ∀ p ∈ ps, p.Readable)
    (rest : List UInt8) :
    (fields (depth + 2)).parse l (ps.flatMap phoneBytes ++ rest) =
      (fields (depth + 2)).parse { l with phones := l.phones ++ ps } rest := by
  induction ps generalizing l with
  | nil => simp
  | cons p ps ih =>
      rw [List.flatMap_cons, List.append_assoc, parse_phone (hp p (by simp)) (hr p (by simp)),
        ih (fun q hq ↦ hp q (by simp [hq])) fun q hq ↦ hr q (by simp [hq])]
      simp

/-- **A list of readable phones is read back**, and the parser goes on with what
is behind it. -/
theorem parse_internalSerialize (hp : l.Plain) (hr : ∀ p ∈ l.phones, p.Readable)
    (rest : List UInt8) :
    (fields (depth + 2)).parse empty (l.internalSerialize ++ rest) =
      (fields (depth + 2)).parse l rest := by
  have hser : l.internalSerialize = l.phones.flatMap phoneBytes := by
    rw [internalSerialize, hp.unknownFields]
    exact List.append_nil _
  have hl : (⟨empty.phones ++ l.phones, empty.unknownFields⟩ : PhoneList) = l := by
    rw [empty, List.nil_append, ← hp.unknownFields]
  rw [hser, parse_phones hp.phones hr, hl]

/-- A phone that is not readable cannot be parsed, whatever is behind it. -/
theorem run_phone_failed {p : Phone} (hr : ¬ p.Readable) (l : PhoneList) (rest : List UInt8) :
    ((fields (depth + 1)).run 10 l
      (varint p.byteSizeLong ++ (p.internalSerialize ++ rest))).2 = none := by
  have hstop : (parseMessage Phone.fields (depth + 1) .empty
      (varint p.internalSerialize.length ++ (p.internalSerialize ++ rest))).2 = none := by
    refine parseMessage_varint_none (fun hle ↦ ?_) rest
    rw [p.length_internalSerialize] at hle
    have hname : isUtf8 p.name = false := Bool.eq_false_iff.mpr fun hn ↦ hr ⟨hn, hle⟩
    rw [Phone.parse_internalSerialize_failed hname hle]
    exact nofun
  rw [p.length_internalSerialize] at hstop
  exact hstop

/-- One phone that is not readable stops the parse. -/
theorem parse_phones_failed {ps : List Phone} (hp : ∀ p ∈ ps, p.Plain)
    (hr : ¬ ∀ p ∈ ps, p.Readable) (rest : List UInt8) :
    ((fields (depth + 2)).parse l (ps.flatMap phoneBytes ++ rest)).2 = .failed := by
  induction ps generalizing l with
  | nil => exact absurd nofun hr
  | cons p ps ih =>
      rw [List.flatMap_cons, List.append_assoc]
      by_cases hread : p.Readable
      · rw [parse_phone (hp p (by simp)) hread]
        refine ih (fun q hq ↦ hp q (by simp [hq])) fun hall ↦ ?_
        exact hr (List.forall_mem_cons.mpr ⟨hread, hall⟩)
      · have hrun : (fields (depth + 2)).run 10 l
            (varint p.byteSizeLong ++
              (p.internalSerialize ++ (ps.flatMap phoneBytes ++ rest))) = (_, none) :=
          Prod.ext rfl (run_phone_failed hread l _)
        rw [phoneBytes, List.cons_append, List.append_assoc,
          FieldParser.parse_cons_bad (by decide) hrun]

/-- Every field that is parsed adds a phone or an unknown field. -/
theorem length_fields {tag : Nat} {l l' : PhoneList} {bytes rest : List UInt8}
    (h : (fields depth).run tag l bytes = (l', some rest)) :
    l.phones.length + l.unknownFields.length < l'.phones.length + l'.unknownFields.length := by
  simp only [fields] at h
  split at h
  · rw [Prod.mk.injEq] at h
    rw [← h.1]
    simp only [List.length_append, List.length_singleton]
    omega
  · rw [parseUnknown, Prod.mk.injEq] at h
    obtain ⟨rfl, h⟩ := h
    exact Nat.add_lt_add_left (length_unknownFields (Prod.ext rfl h)) _

/-- What is parsed behind a message changes it. -/
theorem parse_ne_self {rest : List UInt8} (hne : rest ≠ []) :
    (fields depth).parse l rest ≠ (l, .atLimit) := by
  intro h
  have := FieldParser.parse_measure
    (fun l : PhoneList ↦ l.phones.length + l.unknownFields.length) length_fields h hne
  exact Nat.lt_irrefl _ this

end PhoneList

end CppExamples.Radio
