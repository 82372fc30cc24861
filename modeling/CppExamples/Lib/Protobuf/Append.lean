import CppExamples.Lib.Protobuf.Timestamp

/-!
# Parsers do not look ahead

A reader takes what belongs to its value and leaves the rest alone, whatever the
rest is: if it succeeds on some bytes, it succeeds in the same way on these bytes
with more behind them.  For a field parser this is `Local`, and a message parser
whose fields are local can be stopped and resumed between any two fields.

* `parse_append` is the resumption: bytes that parse to their end can have others
  put behind them, and the parser goes on with those.
* `parse_append_lastTag` is the same for a parse that ends with a tag of its own.
* `parse_part` and `parse_front` are about bytes that have been cut off: a field
  is accepted whole or not at all, and so the front of a sequence of fields is
  refused unless it ends between two of them.
-/

namespace CppExamples.Lib.Protobuf

universe u

/-! ## Readers -/

variable {s more rest : List UInt8}

theorem readVarint_append {k n : Nat} (h : readVarint k s = some (n, rest)) (more : List UInt8) :
    readVarint k (s ++ more) = some (n, rest ++ more) := by
  induction k generalizing n s with
  | zero => cases h
  | succ k ih =>
      cases s with
      | nil => cases h
      | cons b s =>
          rw [readVarint] at h
          rw [List.cons_append, readVarint]
          split at h
          · rename_i hb
            cases h
            rw [if_pos hb]
          · rename_i hb
            obtain ⟨r, hr, he⟩ := Option.map_eq_some_iff.mp h
            cases he
            rw [if_neg hb, ih hr, Option.map_some]

theorem readTag_append {t : Nat} (h : readTag s = some (t, rest)) (more : List UInt8) :
    readTag (s ++ more) = some (t, rest ++ more) := by
  obtain ⟨r, hr, he⟩ := Option.map_eq_some_iff.mp h
  cases he
  rw [readTag, readVarint_append hr, Option.map_some]

theorem readVarint64_append {v : BitVec 64} (h : readVarint64 s = some (v, rest))
    (more : List UInt8) : readVarint64 (s ++ more) = some (v, rest ++ more) := by
  obtain ⟨r, hr, he⟩ := Option.map_eq_some_iff.mp h
  cases he
  rw [readVarint64, readVarint_append hr, Option.map_some]

theorem readVarint32_append {v : BitVec 32} (h : readVarint32 s = some (v, rest))
    (more : List UInt8) : readVarint32 (s ++ more) = some (v, rest ++ more) := by
  obtain ⟨r, hr, he⟩ := Option.map_eq_some_iff.mp h
  cases he
  rw [readVarint32, readVarint_append hr, Option.map_some]

theorem readInt32_append {v : BitVec 32} (h : readInt32 s = some (v, rest))
    (more : List UInt8) : readInt32 (s ++ more) = some (v, rest ++ more) := by
  obtain ⟨r, hr, he⟩ := Option.map_eq_some_iff.mp h
  cases he
  rw [readInt32, readVarint64_append hr, Option.map_some]

theorem readSize_append {n : Nat} (h : readSize s = some (n, rest)) (more : List UInt8) :
    readSize (s ++ more) = some (n, rest ++ more) := by
  have hr := Option.eq_some_of_filter_eq_some h
  have hn : n ≤ maxSize := by simpa using Option.filter_eq_some_iff.mp h |>.2
  rw [readSize, readVarint_append hr, Option.filter_some, if_pos (decide_eq_true hn)]

theorem readFixed_append {n : Nat} {v : List UInt8} (h : readFixed n s = some (v, rest))
    (more : List UInt8) : readFixed n (s ++ more) = some (v, rest ++ more) := by
  rw [readFixed] at h
  split at h
  · rename_i hn
    cases h
    rw [readFixed, if_pos (by rw [List.length_append]; omega), List.take_append_of_le_length hn,
      List.drop_append_of_le_length hn]
  · cases h

theorem readBytes_append {v : List UInt8} (h : readBytes s = some (v, rest))
    (more : List UInt8) : readBytes (s ++ more) = some (v, rest ++ more) := by
  obtain ⟨r, hr, hf⟩ := Option.bind_eq_some_iff.mp h
  rw [readBytes, readSize_append hr, Option.bind_some]
  exact readFixed_append hf more

/-! ## Field parsers -/

variable {σ α : Type u}

/-- The parser of a field does not depend on what is behind the field. -/
def FieldParser.Local (P : FieldParser σ) : Prop :=
  ∀ {tag : Nat} {m m' : σ} {s rest : List UInt8}, P.run tag m s = (m', some rest) →
    ∀ more, P.run tag m (s ++ more) = (m', some (rest ++ more))

theorem readInto_append {m m' : σ} {read : List UInt8 → Option (α × List UInt8)} {set : α → σ}
    (hread : ∀ {v rest}, read s = some (v, rest) →
      ∀ more, read (s ++ more) = some (v, rest ++ more))
    (h : readInto (read s) m set = (m', some rest)) (more : List UInt8) :
    readInto (read (s ++ more)) m set = (m', some (rest ++ more)) := by
  cases hr : read s with
  | none =>
      rw [hr] at h
      cases h
  | some r =>
      rw [hr] at h
      cases h
      rw [hread hr]
      rfl

theorem parseMessage_append {P : Nat → FieldParser σ} {depth : Nat} {m m' : σ}
    (h : parseMessage P depth m s = (m', some rest)) (more : List UInt8) :
    parseMessage P depth m (s ++ more) = (m', some (rest ++ more)) := by
  unfold parseMessage at h
  split at h
  · rename_i depth n r hr
    split at h
    · rename_i m₁ hparse
      obtain ⟨hm, h⟩ := Prod.mk.inj h
      split at h
      · rename_i hn
        cases h
        have hparse' : (P depth).parse m ((r ++ more).take n) = (m₁, .atLimit) := by
          rw [List.take_append_of_le_length hn]
          exact hparse
        have hn' : n ≤ r.length + more.length := Nat.le_add_right_of_le hn
        simp [parseMessage, readSize_append hr, hparse', hn', hm,
          List.drop_append_of_le_length hn]
      · cases h
    · cases h
  · cases h

namespace FieldParser

variable {P : FieldParser σ} {m m' : σ}

/-- **A parse that has come to its end can be resumed** with more bytes. -/
theorem parse_append (hP : P.Local) (h : P.parse m s = (m', .atLimit)) (more : List UInt8) :
    P.parse m (s ++ more) = P.parse m' more := by
  induction m, s using parse_induction (P := P) with
  | nil m => cases h; rfl
  | badTag m s hne ht =>
      rw [parse_badTag hne ht] at h
      cases h
  | endTag m s tag rest ht he =>
      rw [parse_endTag ht he] at h
      cases h
  | badField m s tag rest m₁ ht he hr =>
      rw [parse_badField ht he hr] at h
      cases h
  | field m s tag rest m₁ rest₁ ht he hr hlt ih =>
      rw [parse_field ht he hr] at h
      rw [parse_field (readTag_append ht more) he (hP hr more)]
      exact ih h

/-- A parse that has ended with a tag is not affected by what is behind it. -/
theorem parse_append_lastTag (hP : P.Local) {t : Nat}
    (h : P.parse m s = (m', .lastTag t rest)) (more : List UInt8) :
    P.parse m (s ++ more) = (m', .lastTag t (rest ++ more)) := by
  induction m, s using parse_induction (P := P) with
  | nil m => cases h
  | badTag m s hne ht =>
      rw [parse_badTag hne ht] at h
      cases h
  | endTag m s tag rest₁ ht he =>
      rw [parse_endTag ht he] at h
      cases h
      rw [parse_endTag (readTag_append ht more) he]
  | badField m s tag rest₁ m₁ ht he hr =>
      rw [parse_badField ht he hr] at h
      cases h
  | field m s tag rest₁ m₁ rest₂ ht he hr hlt ih =>
      rw [parse_field ht he hr] at h
      rw [parse_field (readTag_append ht more) he (hP hr more)]
      exact ih h

/-- A parse commutes with what its fields commute with. -/
theorem parse_map {τ : Type u} {Q : FieldParser τ} {φ : σ → τ}
    (hφ : ∀ tag m s, Q.run tag (φ m) s = (P.run tag m s).map φ id) (m : σ) (s : List UInt8) :
    Q.parse (φ m) s = (P.parse m s).map φ id := by
  induction m, s using parse_induction (P := P) with
  | nil m => rfl
  | badTag m s hne ht =>
      rw [parse_badTag hne ht, parse_badTag hne ht]
      rfl
  | endTag m s tag rest ht he =>
      rw [parse_endTag ht he, parse_endTag ht he]
      rfl
  | badField m s tag rest m₁ ht he hr =>
      have hr' : Q.run tag (φ m) rest = (φ m₁, none) := by rw [hφ, hr]; rfl
      rw [parse_badField ht he hr, parse_badField ht he hr']
      rfl
  | field m s tag rest m₁ rest₁ ht he hr hlt ih =>
      have hr' : Q.run tag (φ m) rest = (φ m₁, some rest₁) := by rw [hφ, hr]; rfl
      rw [parse_field ht he hr, parse_field ht he hr', ih]

end FieldParser

/-! ## The fields of messages -/

theorem unknownFieldsWith_local {g : Option (FieldParser (List UnknownField))}
    (hg : ∀ P, g = some P → P.Local) : (unknownFieldsWith g).Local := by
  intro tag m m' s rest h more
  simp only [unknownFieldsWith] at h ⊢
  split at h
  · cases h
  · rename_i hne
    rw [if_neg hne]
    split at h
    · exact readInto_append readVarint64_append h more
    · exact readInto_append readFixed_append h more
    · exact readInto_append readBytes_append h more
    · split at h
      · cases h
      · rename_i P
        split at h
        · rename_i hp
          obtain ⟨hm, h⟩ := Prod.mk.inj h
          split at h
          · rename_i hend
            cases h
            rw [FieldParser.parse_append_lastTag (hg P rfl) hp more]
            simp only [hm, if_pos hend]
          · cases h
        · cases h
    · exact readInto_append readFixed_append h more
    · cases h

theorem unknownFields_local (depth : Nat) : (unknownFields depth).Local := by
  induction depth with
  | zero => exact unknownFieldsWith_local (by simp)
  | succ depth ih =>
      refine unknownFieldsWith_local fun P hP ↦ ?_
      cases hP
      exact ih

theorem parseUnknown_append {σ : Type} {depth tag : Nat} {fields : List UnknownField}
    {set : List UnknownField → σ} {m' : σ}
    (h : parseUnknown depth tag fields s set = (m', some rest)) (more : List UInt8) :
    parseUnknown depth tag fields (s ++ more) set = (m', some (rest ++ more)) := by
  obtain ⟨hm, hrest⟩ := Prod.mk.inj h
  have := unknownFields_local depth (Prod.ext rfl hrest) more
  simp only [parseUnknown, this, hm]

/-- Unknown fields that are there already stay in front. -/
theorem run_unknownFields_append (depth tag : Nat) (us fields : List UnknownField)
    (s : List UInt8) : (unknownFields depth).run tag (us ++ fields) s =
      ((unknownFields depth).run tag fields s).map (us ++ ·) id := by
  have hread {α : Type} (r : Option (α × List UInt8)) (f : α → UnknownField) :
      (readInto r (us ++ fields) fun v ↦ us ++ fields ++ [f v]) =
        (readInto r fields fun v ↦ fields ++ [f v]).map (us ++ ·) id := by
    cases r with
    | none => rfl
    | some p => exact Prod.ext (List.append_assoc us fields _) rfl
  have hwith (g : Option (FieldParser (List UnknownField))) :
      (unknownFieldsWith g).run tag (us ++ fields) s =
        ((unknownFieldsWith g).run tag fields s).map (us ++ ·) id := by
    simp only [unknownFieldsWith]
    split
    · rfl
    · split
      · exact hread _ _
      · exact hread _ _
      · exact hread _ _
      · split
        · rfl
        · split <;> exact Prod.ext (List.append_assoc us fields _) rfl
      · exact hread _ _
      · rfl
  cases depth with
  | zero => exact hwith none
  | succ depth => exact hwith (some (unknownFields depth))

/-! ## Bytes that have been cut off -/

/-- The bytes are one field, which takes the message `m` to `m'`. -/
def FieldParser.IsField (P : FieldParser σ) (m : σ) (bytes : List UInt8) (m' : σ) : Prop :=
  ∃ tag body, readTag bytes = some (tag, body) ∧ isEndTag tag = false ∧
    P.run tag m body = (m', some [])

/-- The bytes begin with a field that cannot be parsed, whatever is behind them. -/
def FieldParser.IsBadField (P : FieldParser σ) (m : σ) (bytes : List UInt8) : Prop :=
  ∃ tag body, readTag bytes = some (tag, body) ∧ isEndTag tag = false ∧
    ∀ more, (P.run tag m (body ++ more)).2 = none

namespace FieldParser

variable {P : FieldParser σ} {m m' : σ} {bytes : List UInt8}

theorem IsField.parse_append (hP : P.Local) (h : P.IsField m bytes m') (more : List UInt8) :
    P.parse m (bytes ++ more) = P.parse m' more := by
  obtain ⟨tag, body, ht, he, hr⟩ := h
  exact parse_field (readTag_append ht more) he (hP hr more)

/-- If a part of a field were accepted, then so would be the same part with the
missing bytes behind it, which would then be left over. -/
theorem parse_part {tag : Nat} {body : List UInt8} (hP : P.Local) (hs : s ≠ [])
    (ht : readTag (s ++ more) = some (tag, body)) (he : isEndTag tag = false)
    (h : ∀ m₁ left, P.run tag m body ≠ (m₁, some (left ++ more))) :
    (P.parse m s).2 = .failed := by
  cases hs' : readTag s with
  | none => rw [parse_badTag hs hs']
  | some r =>
      obtain ⟨tag', rest⟩ := r
      obtain ⟨rfl, rfl⟩ : tag' = tag ∧ rest ++ more = body := by
        simpa using (readTag_append hs' more).symm.trans ht
      obtain ⟨m₁, r, hpart⟩ : ∃ m₁ r, P.run tag' m rest = (m₁, r) := ⟨_, _, rfl⟩
      cases r with
      | none => rw [parse_badField hs' he hpart]
      | some left => exact absurd (hP hpart more) (h m₁ left)

/-- **A field is accepted whole or not at all.** -/
theorem IsField.parse_part (hP : P.Local) (h : P.IsField m (s ++ more) m') (hs : s ≠ [])
    (hmore : more ≠ []) : (P.parse m s).2 = .failed := by
  obtain ⟨tag, body, ht, he, hr⟩ := h
  refine FieldParser.parse_part hP hs ht he fun m₁ left hleft ↦ ?_
  rw [hr, Prod.mk.injEq, Option.some.injEq] at hleft
  exact hmore (List.append_eq_nil_iff.mp hleft.2.symm).2

/-- A bad field is not accepted, and no part of it. -/
theorem IsBadField.parse_part (hP : P.Local) (h : P.IsBadField m bytes) (hs : s <+: bytes ++ more)
    (hne : s ≠ []) : (P.parse m s).2 = .failed := by
  obtain ⟨tag, body, ht, he, hr⟩ := h
  obtain ⟨missing, hmissing⟩ := hs
  have hwhole : readTag (s ++ missing) = some (tag, body ++ more) :=
    hmissing ▸ readTag_append ht more
  refine FieldParser.parse_part hP hne hwhole he fun m₁ left hleft ↦ ?_
  have hnone := hr more
  rw [hleft] at hnone
  cases hnone

/-- **The front of a sequence of fields** is either refused, or it is made of the
first so many fields and nothing else.  Some of the fields may be bad ones. -/
theorem parse_front {β : Type} (hP : P.Local) {enc : β → List UInt8} {add : σ → β → σ}
    {bs : List β} (hfield : ∀ b ∈ bs, ∀ m,
      P.IsField m (enc b) (add m b) ∨ P.IsBadField m (enc b))
    (hs : s <+: bs.flatMap enc) (m : σ) :
    (P.parse m s).2 = .failed ∨ ∃ k ≤ bs.length, s = (bs.take k).flatMap enc ∧
      P.parse m s = ((bs.take k).foldl add m, .atLimit) := by
  induction bs generalizing m s with
  | nil =>
      obtain rfl : s = [] := List.prefix_nil.mp hs
      exact .inr ⟨0, Nat.le_refl 0, rfl, rfl⟩
  | cons b bs ih =>
      rw [List.flatMap_cons] at hs
      by_cases hnil : s = []
      · exact .inr ⟨0, Nat.zero_le _, hnil, by rw [hnil]; rfl⟩
      · rcases hfield b (by simp) m with hb | hb
        · by_cases hwhole : enc b <+: s
          · obtain ⟨s', rfl⟩ := hwhole
            rw [hb.parse_append hP]
            rcases ih (fun b hb ↦ hfield b (by simp [hb]))
              ((List.prefix_append_right_inj _).mp hs) (add m b) with hbad | ⟨k, hk, hs', hp⟩
            · exact .inl hbad
            · refine .inr ⟨k + 1, Nat.succ_le_succ hk, ?_, hp⟩
              rw [List.take_succ_cons, List.flatMap_cons, ← hs']
          · obtain ⟨more, hmore⟩ := (List.prefix_or_prefix_of_prefix hs
              (List.prefix_append _ _)).resolve_right hwhole
            rw [← hmore] at hb hwhole
            refine .inl (hb.parse_part hP hnil fun h ↦ hwhole ⟨[], ?_⟩)
            rw [h, List.append_nil, List.append_nil]
        · exact .inl (hb.parse_part hP hs hnil)

end FieldParser

end CppExamples.Lib.Protobuf
