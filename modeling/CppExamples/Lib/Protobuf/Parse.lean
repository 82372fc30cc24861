import CppExamples.Lib.Protobuf.Varint

/-!
# The loop of a message parser

A generated parser reads tags one after the other and dispatches on them until
it is at its limit, or reads a tag `0` or an end-group tag, or fails.  What it
does with one field is a `FieldParser`; the loop around it is `parse`, the same
for all messages.  A parse that fails leaves in the message what it has read so
far.

A `FieldParser` never gives back more bytes than it was given, which is what
makes the loop end; it carries the proof.  The loop runs on fuel, as many turns
as there are bytes, and `loop_eq_parse` says that more would make no difference.
After that the loop is used through its four equations and through the induction
`parse_induction`.
-/

namespace CppExamples.Lib.Protobuf

universe u

/-- How a message of type `σ` parses the field with a given tag: the message
afterwards and, unless that fails, the bytes behind the field. -/
structure FieldParser (σ : Type u) where
  run : Nat → σ → List UInt8 → σ × Option (List UInt8)
  length_le {tag : Nat} {s : σ} {bytes rest : List UInt8} :
    (run tag s bytes).2 = some rest → rest.length ≤ bytes.length

/-- How a parser ends. -/
inductive Outcome where
  | failed
  | /-- All bytes up to the limit have been read. -/
    atLimit
  | /-- A tag `0` or an end-group tag has been read, with these bytes behind it. -/
    lastTag (tag : Nat) (rest : List UInt8)
deriving DecidableEq

/-- The encoding of a field of the one-byte tag `t`, which is left out unless the
field is present. -/
def fieldBytes (present : Prop) [Decidable present] (t : Nat) (body : List UInt8) : List UInt8 :=
  if present then UInt8.ofNat t :: body else []

theorem length_fieldBytes {present : Prop} [Decidable present] {t : Nat} {body : List UInt8} :
    (fieldBytes present t body).length = if present then 1 + body.length else 0 := by
  rw [fieldBytes]
  split
  · exact Nat.add_comm _ _
  · rfl

/-- Tags that end a message. -/
def isEndTag (tag : Nat) : Bool := tag = 0 || tag &&& 7 = 4

/-- Tags of one byte that do not end a message. -/
def IsFieldTag (tag : Nat) : Prop := tag < 128 ∧ isEndTag tag = false

instance (tag : Nat) : Decidable (IsFieldTag tag) := inferInstanceAs (Decidable (_ ∧ _))

namespace FieldParser

variable {σ : Type u} (P : FieldParser σ)

/-- At most `fuel` turns of the parser loop. -/
def loop : Nat → σ → List UInt8 → σ × Outcome
  | _, s, [] => (s, .atLimit)
  | 0, s, _ :: _ => (s, .failed)
  | fuel + 1, s, b :: bytes => match readTag (b :: bytes) with
      | none => (s, .failed)
      | some (tag, rest) =>
          if isEndTag tag then (s, .lastTag tag rest)
          else match P.run tag s rest with
            | (s', none) => (s', .failed)
            | (s', some rest') => loop fuel s' rest'

/-- The parser of a message, from the message `s`. -/
def parse (s : σ) (bytes : List UInt8) : σ × Outcome := P.loop bytes.length s bytes

variable {P} {s s' : σ} {tag : Nat} {bytes rest rest' : List UInt8}

/-- Every turn takes at least one byte, so fuel for all bytes is enough. -/
theorem loop_eq_parse {fuel : Nat} (h : bytes.length ≤ fuel) :
    P.loop fuel s bytes = P.parse s bytes := by
  suffices ∀ n fuel' (bytes : List UInt8) s, bytes.length ≤ n → bytes.length ≤ fuel' →
      P.loop n s bytes = P.loop fuel' s bytes from this _ _ _ _ h (Nat.le_refl _)
  intro n
  induction n with
  | zero =>
      intro fuel' bytes s hn _
      obtain rfl : bytes = [] := List.length_eq_zero_iff.mp (Nat.le_zero.mp hn)
      cases fuel' <;> rfl
  | succ n ih =>
      intro fuel' bytes s hn hf
      cases bytes with
      | nil => cases fuel' <;> rfl
      | cons b bytes =>
          cases fuel' with
          | zero => cases hf
          | succ fuel' =>
              simp only [loop]
              split
              · rfl
              · rename_i tag rest ht
                split
                · rfl
                · split
                  · rfl
                  · rename_i s' rest' hr
                    have h₁ := readTag_length ht
                    have h₂ : rest'.length ≤ rest.length := P.length_le (by rw [hr])
                    exact ih fuel' rest' s' (by omega) (by omega)

/-! ## The equations of the loop -/

@[simp] theorem parse_nil : P.parse s [] = (s, .atLimit) := rfl

theorem parse_badTag (hne : bytes ≠ []) (h : readTag bytes = none) :
    P.parse s bytes = (s, .failed) := by
  cases bytes with
  | nil => exact absurd rfl hne
  | cons b bytes => simp [parse, loop, h]

theorem parse_endTag (h : readTag bytes = some (tag, rest)) (ht : isEndTag tag = true) :
    P.parse s bytes = (s, .lastTag tag rest) := by
  cases bytes with
  | nil => cases h
  | cons b bytes => simp [parse, loop, h, ht]

theorem parse_badField (h : readTag bytes = some (tag, rest)) (ht : isEndTag tag = false)
    (hr : P.run tag s rest = (s', none)) : P.parse s bytes = (s', .failed) := by
  cases bytes with
  | nil => cases h
  | cons b bytes => simp [parse, loop, h, ht, hr]

theorem parse_field (h : readTag bytes = some (tag, rest)) (ht : isEndTag tag = false)
    (hr : P.run tag s rest = (s', some rest')) : P.parse s bytes = P.parse s' rest' := by
  cases bytes with
  | nil => cases h
  | cons b bytes =>
      have h₁ := readTag_length h
      have h₂ : rest'.length ≤ rest.length := P.length_le (by rw [hr])
      rw [List.length_cons] at h₁
      rw [← loop_eq_parse (show rest'.length ≤ bytes.length by omega)]
      simp [parse, loop, h, ht, hr]

/-- A field with a one-byte tag. -/
theorem parse_cons {t : Nat} (ht : IsFieldTag t) (hr : P.run t s rest = (s', some rest')) :
    P.parse s (UInt8.ofNat t :: rest) = P.parse s' rest' :=
  parse_field (readTag_cons ht.1 rest) ht.2 hr

/-- A field with a one-byte tag that cannot be parsed. -/
theorem parse_cons_bad {t : Nat} (ht : IsFieldTag t) (hr : P.run t s rest = (s', none)) :
    P.parse s (UInt8.ofNat t :: rest) = (s', .failed) :=
  parse_badField (readTag_cons ht.1 rest) ht.2 hr

/-- A field that may be left out, and whose default is what the message has
without it. -/
theorem parse_fieldBytes {present : Prop} [Decidable present] {t : Nat} {body : List UInt8}
    (s' : σ) (ht : IsFieldTag t) (hrun : present → P.run t s (body ++ rest) = (s', some rest))
    (hskip : ¬ present → s' = s) :
    P.parse s (fieldBytes present t body ++ rest) = P.parse s' rest := by
  rw [fieldBytes]
  split
  · exact parse_cons ht (hrun ‹_›)
  · rw [hskip ‹_›, List.nil_append]

/-- **Induction over a parse**: over the ways in which a turn of the loop goes,
where the bytes behind a field are parsed next. -/
theorem parse_induction {motive : σ → List UInt8 → Prop} (nil : ∀ s, motive s [])
    (badTag : ∀ s bytes, bytes ≠ [] → readTag bytes = none → motive s bytes)
    (endTag : ∀ s bytes tag rest, readTag bytes = some (tag, rest) → isEndTag tag = true →
      motive s bytes)
    (badField : ∀ s bytes tag rest s', readTag bytes = some (tag, rest) →
      isEndTag tag = false → P.run tag s rest = (s', none) → motive s bytes)
    (field : ∀ s bytes tag rest s' rest', readTag bytes = some (tag, rest) →
      isEndTag tag = false → P.run tag s rest = (s', some rest') →
        rest'.length < bytes.length → motive s' rest' → motive s bytes)
    (s : σ) (bytes : List UInt8) : motive s bytes := by
  induction hn : bytes.length using Nat.strongRecOn generalizing bytes s with
  | ind n ih =>
      subst hn
      by_cases hne : bytes = []
      · rw [hne]
        exact nil s
      · cases ht : readTag bytes with
        | none => exact badTag s bytes hne ht
        | some r =>
            obtain ⟨tag, rest⟩ := r
            have h₁ := readTag_length ht
            cases he : isEndTag tag with
            | true => exact endTag s bytes tag rest ht he
            | false =>
                rcases hr : P.run tag s rest with ⟨s', _ | rest'⟩
                · exact badField s bytes tag rest s' ht he hr
                · have h₂ : rest'.length ≤ rest.length := P.length_le (by rw [hr])
                  have hlt := Nat.lt_of_le_of_lt h₂ h₁
                  exact field s bytes tag rest s' rest' ht he hr hlt (ih _ hlt s' rest' rfl)

/-- What a parser leaves behind an end tag is shorter than what it was given. -/
theorem length_of_lastTag (h : P.parse s bytes = (s', .lastTag tag rest)) :
    rest.length < bytes.length := by
  induction s, bytes using parse_induction (P := P) with
  | nil s => cases h
  | badTag s bytes hne ht =>
      rw [parse_badTag hne ht] at h
      cases h
  | endTag s bytes t r ht he =>
      rw [parse_endTag ht he] at h
      cases h
      exact readTag_length ht
  | badField s bytes t r s₁ ht he hr =>
      rw [parse_badField ht he hr] at h
      cases h
  | field s bytes t r s₁ r' ht he hr hlt ih =>
      rw [parse_field ht he hr] at h
      exact (ih h).trans hlt

/-- **A successful parse leaves a trace.**  If every field adds to a measure of
the message, then so does every parse that succeeds, unless there was nothing to
parse. -/
theorem parse_measure (μ : σ → Nat)
    (hμ : ∀ {tag s bytes s' rest}, P.run tag s bytes = (s', some rest) → μ s < μ s')
    (h : P.parse s bytes = (s', .atLimit)) (hne : bytes ≠ []) : μ s < μ s' := by
  induction s, bytes using parse_induction (P := P) with
  | nil s => exact absurd rfl hne
  | badTag s bytes hne ht =>
      rw [parse_badTag hne ht] at h
      cases h
  | endTag s bytes t r ht he =>
      rw [parse_endTag ht he] at h
      cases h
  | badField s bytes t r s₁ ht he hr =>
      rw [parse_badField ht he hr] at h
      cases h
  | field s bytes t r s₁ r' ht he hr hlt ih =>
      rw [parse_field ht he hr] at h
      by_cases hnil : r' = []
      · subst hnil
        cases h
        exact hμ hr
      · exact (hμ hr).trans (ih h hnil)

/-- **The invariant rule**: what every field keeps is kept by every parse that
does not fail. -/
theorem parse_invariant {I : σ → Prop}
    (hI : ∀ {tag s bytes s' rest}, tag < 2 ^ 32 → isEndTag tag = false → I s →
      P.run tag s bytes = (s', some rest) → I s')
    (hs : I s) {out : Outcome} (h : P.parse s bytes = (s', out)) (hout : out ≠ .failed) :
    I s' := by
  induction s, bytes using parse_induction (P := P) with
  | nil s => cases h; exact hs
  | badTag s bytes hne ht =>
      rw [parse_badTag hne ht] at h
      cases h
      exact absurd rfl hout
  | endTag s bytes t r ht he =>
      rw [parse_endTag ht he] at h
      cases h
      exact hs
  | badField s bytes t r s₁ ht he hr =>
      rw [parse_badField ht he hr] at h
      cases h
      exact absurd rfl hout
  | field s bytes t r s₁ r' ht he hr hlt ih =>
      rw [parse_field ht he hr] at h
      exact ih (hI (readTag_lt ht) he hs hr) h

end FieldParser

/-! ## Reading the value of a field -/

section

variable {σ α : Type u}

/-- The end of a field that reads one value and stores it; `s` is what a read that
fails leaves behind. -/
def readInto (r : Option (α × List UInt8)) (s : σ) (set : α → σ) : σ × Option (List UInt8) :=
  match r with
  | none => (s, none)
  | some (v, rest) => (set v, some rest)

theorem exists_of_readInto {r : Option (α × List UInt8)} {s s' : σ} {set : α → σ}
    {rest : List UInt8} (h : readInto r s set = (s', some rest)) :
    ∃ v, r = some (v, rest) ∧ s' = set v := by
  cases r with
  | none => cases h
  | some p => cases h; exact ⟨p.1, rfl, rfl⟩

theorem readInto_length {r : Option (α × List UInt8)} {s : σ} {set : α → σ}
    {bytes rest : List UInt8} (hr : ∀ v rest, r = some (v, rest) → rest.length ≤ bytes.length)
    (h : (readInto r s set).2 = some rest) : rest.length ≤ bytes.length := by
  cases r with
  | none => cases h
  | some p => cases h; exact hr p.1 p.2 rfl

/-- A value of `n` bytes. -/
def readFixed (n : Nat) (bytes : List UInt8) : Option (List UInt8 × List UInt8) :=
  if n ≤ bytes.length then some (bytes.take n, bytes.drop n) else none

/-- A length, and a value of that many bytes. -/
def readBytes (bytes : List UInt8) : Option (List UInt8 × List UInt8) :=
  (readSize bytes).bind fun r ↦ readFixed r.1 r.2

/-- `ParseMessage`: a length, and a message of that many bytes that ends there.
`depth` is how many levels of nesting are left. -/
def parseMessage (P : Nat → FieldParser σ) (depth : Nat) (s : σ) (bytes : List UInt8) :
    σ × Option (List UInt8) :=
  match depth, readSize bytes with
  | depth + 1, some (n, rest) => match (P depth).parse s (rest.take n) with
      | (s', .atLimit) => (s', if n ≤ rest.length then some (rest.drop n) else none)
      | (s', _) => (s', none)
  | _, _ => (s, none)

theorem readFixed_length {n : Nat} {bytes v rest : List UInt8}
    (h : readFixed n bytes = some (v, rest)) : rest.length ≤ bytes.length := by
  rw [readFixed] at h
  split at h
  · cases h
    rw [List.length_drop]
    exact Nat.sub_le _ _
  · cases h

theorem readBytes_length {bytes v rest : List UInt8} (h : readBytes bytes = some (v, rest)) :
    rest.length ≤ bytes.length := by
  obtain ⟨r, hr, hf⟩ := Option.bind_eq_some_iff.mp h
  exact (readFixed_length hf).trans (readSize_length hr).le

theorem parseMessage_length {P : Nat → FieldParser σ} {depth : Nat} {s : σ}
    {bytes rest : List UInt8} (h : (parseMessage P depth s bytes).2 = some rest) :
    rest.length ≤ bytes.length := by
  unfold parseMessage at h
  split at h
  · rename_i n r hr
    have hlt := readSize_length hr
    split at h
    · dsimp only at h
      split at h
      · cases h
        rw [List.length_drop]
        omega
      · cases h
    · cases h
  · cases h

/-- Bytes are read back exactly if there are not too many of them. -/
theorem readBytes_varint {v : List UInt8} (hv : v.length ≤ maxSize) (rest : List UInt8) :
    readBytes (varint v.length ++ (v ++ rest)) = some (v, rest) := by
  rw [readBytes, readSize_varint, if_pos hv, Option.bind_some,
    readFixed, if_pos (by simp), List.take_left, List.drop_left]

/-- A nested message whose bytes parse to the end. -/
theorem parseMessage_varint {P : Nat → FieldParser σ} {depth : Nat} {s s' : σ} {v : List UInt8}
    (hv : v.length ≤ maxSize) (hp : (P depth).parse s v = (s', .atLimit)) (rest : List UInt8) :
    parseMessage P (depth + 1) s (varint v.length ++ (v ++ rest)) = (s', some rest) := by
  simp [parseMessage, readSize_varint, hv, hp]

/-- A nested message whose bytes do not parse to the end. -/
theorem parseMessage_varint_none {P : Nat → FieldParser σ} {depth : Nat} {s : σ} {v : List UInt8}
    (hp : v.length ≤ maxSize → ((P depth).parse s v).2 ≠ .atLimit)
    (rest : List UInt8) :
    (parseMessage P (depth + 1) s (varint v.length ++ (v ++ rest))).2 = none := by
  by_cases hle : v.length ≤ maxSize
  · have hout := hp hle
    rcases hr : (P depth).parse s v with ⟨s', out⟩
    rw [hr] at hout
    cases out with
    | atLimit => exact absurd rfl hout
    | failed => simp [parseMessage, readSize_varint, hle, hr]
    | lastTag tag rest => simp [parseMessage, readSize_varint, hle, hr]
  · simp [parseMessage, readSize_varint, hle]

end

end CppExamples.Lib.Protobuf
