import CppExamples.Lib.Protobuf.WellFormed

/-!
# Merging messages

`MergeFrom` takes over the fields that the other message has set, which for a
field of proto3 means that it is not the default, and puts the unknown fields of
the other message behind its own.  A parser that starts with a message that has
something in it does the same with what it reads, provided that this was written
by a serialiser: `Timestamp.parse_mergeFrom`.
-/

namespace CppExamples.Lib.Protobuf

universe u

/-! ## One field -/

section

variable {α : Type u} [DecidableEq α]

/-- A field after a merge: `unset` is what it holds when it is not set. -/
def merged (unset old new : α) : α := if new ≠ unset then new else old

theorem merged_set {unset new : α} (h : new ≠ unset) (old : α) : merged unset old new = new :=
  if_pos h

variable (unset a b c : α)

@[simp] theorem merged_unset : merged unset a unset = a := if_neg (not_not_intro rfl)

@[simp] theorem unset_merged : merged unset unset a = a := by
  rw [merged]
  split
  · rfl
  · exact (not_ne_iff.mp ‹_›).symm

theorem merged_assoc :
    merged unset (merged unset a b) c = merged unset a (merged unset b c) := by
  by_cases hc : c = unset
  · rw [hc, merged_unset, merged_unset]
  · rw [merged_set hc, merged_set hc, merged_set hc]

end

/-! ## Unknown fields -/

/-- Unknown fields that a message with the tags `known` can have been given by a
parser. -/
def Kept (known : List Nat) (depth : Nat) (us : List UnknownField) : Prop :=
  ∀ f ∈ us, f.WellFormed depth ∧ f.tag ∉ known

variable {known : List Nat} {depth : Nat}

theorem Kept.nil : Kept known depth [] := nofun

theorem Kept.append {us vs : List UnknownField} (hu : Kept known depth us)
    (hv : Kept known depth vs) : Kept known depth (us ++ vs) :=
  fun f hf ↦ (List.mem_append.mp hf).elim (hu f) (hv f)

variable {σ : Type} {m m' : σ} {tag : Nat} {bytes rest : List UInt8} {us : List UnknownField}
  {set : List UnknownField → σ}

/-- A tag that is not known adds to the unknown fields. -/
theorem Kept.parseUnknown (hus : Kept known depth us) (htag : tag < 2 ^ 32) (hk : tag ∉ known)
    (h : parseUnknown depth tag us bytes set = (m', some rest)) :
    ∃ us', m' = set us' ∧ Kept known depth us' := by
  obtain ⟨us', r, hr⟩ : ∃ us' r, (unknownFields depth).run tag us bytes = (us', r) := ⟨_, _, rfl⟩
  simp only [Protobuf.parseUnknown, hr, Prod.mk.injEq] at h
  obtain ⟨rfl, rfl⟩ := h
  obtain ⟨f, rfl, rfl, hw⟩ := UnknownField.yieldsWellFormed depth htag hr
  exact ⟨_, rfl, hus.append fun g hg ↦ by rw [List.mem_singleton.mp hg]; exact ⟨hw, hk⟩⟩

/-- A message parser reads its unknown fields back. -/
theorem Kept.parse_serialize {P : FieldParser σ} (hus : Kept known depth us)
    (get : σ → List UnknownField) (put : σ → List UnknownField → σ)
    (hrun : ∀ tag m bytes, tag ∉ known →
      P.run tag m bytes = Protobuf.parseUnknown depth tag (get m) bytes (put m))
    (hget : ∀ m us, get (put m us) = us) (hput : ∀ m us vs, put (put m us) vs = put m vs)
    (hself : ∀ m, put m (get m) = m) :
    P.parse m (serializeUnknownFields us) = (put m (get m ++ us), .atLimit) := by
  have hparse := FieldParser.parse_serializeUnknownFields (P := P) (m := m)
    (fun m us ↦ put m (get m ++ us)) us []
    (fun m ↦ by rw [List.append_nil, hself])
    (fun m f us ↦ by rw [hget, hput, List.append_assoc]; rfl)
    (fun f hf ↦ (hus f hf).1.isNumber)
    (fun f hf m rest ↦ by
      rw [hrun _ _ _ (hus f hf).2, Protobuf.parseUnknown, (hus f hf).1.run_body])
  rwa [List.append_nil] at hparse

/-! ## Nested messages -/

theorem exists_parse_of_parseMessage {P : Nat → FieldParser σ}
    (h : parseMessage P (depth + 1) m bytes = (m', some rest)) :
    ∃ v, (P depth).parse m v = (m', .atLimit) := by
  cases hr : readSize bytes with
  | none => simp [parseMessage, hr] at h
  | some r =>
      obtain ⟨m₁, out, hp⟩ : ∃ m₁ out, (P depth).parse m (r.2.take r.1) = (m₁, out) := ⟨_, _, rfl⟩
      cases out <;> simp only [parseMessage, hr, hp] at h
      · cases h
      · obtain ⟨rfl, _⟩ := Prod.mk.inj h
        exact ⟨_, hp⟩
      · cases h

/-! ## Timestamps -/

namespace Timestamp

/-- `MergeFrom` -/
def mergeFrom (t other : Timestamp) : Timestamp where
  seconds := merged 0 t.seconds other.seconds
  nanos := merged 0 t.nanos other.nanos
  unknownFields := t.unknownFields ++ other.unknownFields

theorem empty_mergeFrom (t : Timestamp) : empty.mergeFrom t = t := by
  simp [mergeFrom, empty]

theorem mergeFrom_empty (t : Timestamp) : t.mergeFrom empty = t := by
  simp [mergeFrom, empty]

theorem mergeFrom_assoc (t u v : Timestamp) :
    (t.mergeFrom u).mergeFrom v = t.mergeFrom (u.mergeFrom v) := by
  simp [mergeFrom, merged_assoc]

/-- A timestamp that a parser can yield. -/
def WellFormed (depth : Nat) (t : Timestamp) : Prop := Kept [8, 16] depth t.unknownFields

theorem fields_run_unknown (htag : tag ∉ [8, 16]) (t : Timestamp) (bytes : List UInt8) :
    (fields depth).run tag t bytes =
      parseUnknown depth tag t.unknownFields bytes fun u ↦ { t with unknownFields := u } := by
  simp only [fields]
  split
  · exact absurd htag (by decide)
  · exact absurd htag (by decide)
  · rfl

/-- A parser keeps a timestamp well-formed. -/
theorem WellFormed.run {t t' : Timestamp} (ht : t.WellFormed depth) (htag : tag < 2 ^ 32)
    (h : (fields depth).run tag t bytes = (t', some rest)) : t'.WellFormed depth := by
  by_cases hk : tag ∈ [8, 16]
  · obtain rfl | rfl : tag = 8 ∨ tag = 16 := by simpa using hk
    · obtain ⟨v, _, rfl⟩ := exists_of_readInto h
      exact ht
    · obtain ⟨v, _, rfl⟩ := exists_of_readInto h
      exact ht
  · rw [fields_run_unknown hk] at h
    obtain ⟨us, rfl, hus⟩ := ht.parseUnknown htag hk h
    exact hus

/-- **Parsing what a timestamp was written as is merging it.** -/
theorem parse_mergeFrom {t : Timestamp} (ht : t.WellFormed depth) (t₀ : Timestamp) :
    (fields depth).parse t₀ t.internalSerialize = (t₀.mergeFrom t, .atLimit) := by
  rw [internalSerialize,
    FieldParser.parse_fieldBytes { t₀ with seconds := merged 0 t₀.seconds t.seconds } (by decide)
      (fun h ↦ by rw [merged_set h]; simp [fields, readInto, readVarint64_varint])
      (fun h ↦ by rw [not_ne_iff.mp h, merged_unset]),
    FieldParser.parse_fieldBytes { t₀ with
        seconds := merged 0 t₀.seconds t.seconds, nanos := merged 0 t₀.nanos t.nanos } (by decide)
      (fun h ↦ by rw [merged_set h]; simp [fields, readInto, readInt32_varintInt32])
      (fun h ↦ by rw [not_ne_iff.mp h, merged_unset])]
  exact ht.parse_serialize (·.unknownFields) (fun t u ↦ { t with unknownFields := u })
    (fun tag m bytes hk ↦ fields_run_unknown hk m bytes) (fun _ _ ↦ rfl) (fun _ _ _ ↦ rfl)
    fun _ ↦ rfl

end Timestamp

end CppExamples.Lib.Protobuf
