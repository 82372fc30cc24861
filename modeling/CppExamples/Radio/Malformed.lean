import CppExamples.Radio.UdpClient
import Mathlib.Data.List.Infix

/-!
# Malformed datagrams

Both programs that parse a list of phones can be given bytes that are not one.
The reader of the phone file checks the result of the parse and prints nothing.
The UDP client does not check it, and prints what the parse has left behind.

A parser adds a phone to the list before it parses it, so that the client prints
a phone from every datagram in which the parser comes to the start of one, even
if it fails on the very next byte.  `PhoneList.StartsPhone` says which datagrams
these are.
-/

namespace CppExamples.Radio

open CppExamples.Lib CppExamples.Lib.Protobuf

namespace PhoneList

/-- The bytes hold the tag of a phone, at their start or behind fields that a list
of phones does not define; `depth` is how deeply these may be nested.  The tag is
there as a whole: one that the end of the bytes cuts off fails before the parser
dispatches on it (`readTag`). -/
inductive StartsPhone (depth : Nat) : List UInt8 → Prop where
  | phone {bytes rest : List UInt8} (h : readTag bytes = some (10, rest)) :
      StartsPhone depth bytes
  | skip {bytes rest rest' : List UInt8} {tag : Nat} (h : readTag bytes = some (tag, rest))
      (hend : isEndTag tag = false) (hskip : skipUnknown depth tag rest = some rest')
      (hrest : StartsPhone depth rest') : StartsPhone depth bytes

variable {depth tag : Nat} {l : PhoneList} {bytes rest rest' : List UInt8}

/-- A phone is added to the list, whatever becomes of it. -/
theorem run_phone (depth : Nat) (l : PhoneList) (bytes : List UInt8) :
    ∃ p, ((fields depth).run 10 l bytes).1.phones = l.phones ++ [p] := ⟨_, rfl⟩

/-- Every other field leaves the phones alone. -/
theorem run_other (depth : Nat) (l : PhoneList) (bytes : List UInt8) (h : tag ≠ 10) :
    ((fields depth).run tag l bytes).1.phones = l.phones ∧
      ((fields depth).run tag l bytes).2 = skipUnknown depth tag bytes := by
  simp only [fields]
  exact ⟨rfl, snd_unknownFields⟩

/-- What a field makes of the phones. -/
theorem phones_run {l' : PhoneList} {r : Option (List UInt8)}
    (h : (fields depth).run tag l bytes = (l', r)) :
    tag = 10 ∧ (∃ p, l'.phones = l.phones ++ [p]) ∨
      tag ≠ 10 ∧ l'.phones = l.phones ∧ r = skipUnknown depth tag bytes := by
  by_cases ht : tag = 10
  · subst ht
    have hp := run_phone depth l bytes
    rw [h] at hp
    exact .inl ⟨rfl, hp⟩
  · have hp := run_other depth l bytes ht
    rw [h] at hp
    exact .inr ⟨ht, hp⟩

/-- Phones are not taken back. -/
theorem prefix_parse : l.phones <+: ((fields depth).parse l bytes).1.phones := by
  have hrun {l l' : PhoneList} {tag : Nat} {bytes : List UInt8} {r : Option (List UInt8)}
      (h : (fields depth).run tag l bytes = (l', r)) : l.phones <+: l'.phones := by
    rcases phones_run h with ⟨-, p, hp⟩ | ⟨-, hp, -⟩
    · exact ⟨[p], hp.symm⟩
    · rw [hp]
  induction l, bytes using FieldParser.parse_induction (P := fields depth) with
  | nil l => exact List.prefix_rfl
  | badTag l bytes hne ht => rw [FieldParser.parse_badTag hne ht]
  | endTag l bytes t r ht he => rw [FieldParser.parse_endTag ht he]
  | badField l bytes t r l' ht he hr =>
      rw [FieldParser.parse_badField ht he hr]
      exact hrun hr
  | field l bytes t r l' r' ht he hr hlt ih =>
      rw [FieldParser.parse_field ht he hr]
      exact (hrun hr).trans ih

/-- What is at the start of bytes with a tag that does not end a message. -/
theorem startsPhone_iff (ht : readTag bytes = some (tag, rest)) (he : isEndTag tag = false) :
    StartsPhone depth bytes ↔
      tag = 10 ∨ ∃ rest', skipUnknown depth tag rest = some rest' ∧ StartsPhone depth rest' := by
  constructor
  · rintro (⟨h⟩ | ⟨h, -, hskip, hrest⟩)
    · rw [ht] at h
      cases h
      exact .inl rfl
    · rw [ht] at h
      cases h
      exact .inr ⟨_, hskip, hrest⟩
  · rintro (rfl | ⟨rest', hskip, hrest⟩)
    · exact .phone ht
    · exact .skip ht he hskip hrest

/-- There is no phone where the parser stops. -/
theorem not_startsPhone (h : ∀ tag rest, readTag bytes = some (tag, rest) →
    isEndTag tag = true) : ¬ StartsPhone depth bytes := by
  rintro (⟨ht⟩ | ⟨ht, hend, -, -⟩)
  · cases h _ _ ht
  · rw [h _ _ ht] at hend
    cases hend

/-- **A parse adds phones to the list exactly if it comes to the start of one.** -/
theorem parse_phones_iff :
    ((fields depth).parse l bytes).1.phones = l.phones ↔ ¬ StartsPhone depth bytes := by
  induction l, bytes using FieldParser.parse_induction (P := fields depth) with
  | nil l => exact iff_of_true rfl (not_startsPhone fun tag rest ht ↦ by cases ht)
  | badTag l bytes hne ht =>
      rw [FieldParser.parse_badTag hne ht]
      exact iff_of_true rfl (not_startsPhone fun tag rest ht' ↦ by rw [ht] at ht'; cases ht')
  | endTag l bytes t r ht he =>
      rw [FieldParser.parse_endTag ht he]
      refine iff_of_true rfl (not_startsPhone fun tag rest ht' ↦ ?_)
      rw [ht] at ht'
      cases ht'
      exact he
  | badField l bytes t r l' ht he hr =>
      rw [FieldParser.parse_badField ht he hr, startsPhone_iff ht he]
      rcases phones_run hr with ⟨h10, p, hp⟩ | ⟨hne, hp, hskip⟩
      · refine iff_of_false ?_ (not_not_intro (.inl h10))
        simp [hp]
      · refine iff_of_true hp ?_
        rintro (h10 | ⟨rest', h, -⟩)
        · exact hne h10
        · rw [h] at hskip
          cases hskip
  | field l bytes t r l' r' ht he hr hlt ih =>
      rw [FieldParser.parse_field ht he hr, startsPhone_iff ht he]
      rcases phones_run hr with ⟨h10, p, hp⟩ | ⟨hne, hp, hskip⟩
      · refine iff_of_false (fun h ↦ ?_) (not_not_intro (.inl h10))
        have hpre : l'.phones <+: l.phones := h ▸ prefix_parse
        have hle := hpre.length_le
        rw [hp, List.length_append, List.length_singleton] at hle
        omega
      · rw [← hp, ih, ← hskip]
        simp [hne]

end PhoneList

variable {recvBuf : Buffer recvBufSize} {datagram : List UInt8}

/-- The client parses the whole of its buffer. -/
theorem receivePhoneList_eq_parseFrom :
    receivePhoneList recvBuf datagram = PhoneList.parseFrom (recvBuf.store datagram).bytes := by
  have htake : (recvBuf.store datagram).bytes.take 128 = (recvBuf.store datagram).bytes :=
    List.take_of_length_le (Buffer.length_bytes _).le
  rw [receivePhoneList, PhoneList.parseFromArray, htake]

/-- The client prints something for each phone. -/
theorem clientMain_eq_nil_iff : clientMain recvBuf datagram = [] ↔
    ¬ PhoneList.StartsPhone PhoneList.recursionLimit (recvBuf.store datagram).bytes := by
  have hphones : (receivePhoneList recvBuf datagram).1.phones = [] ↔
      ¬ PhoneList.StartsPhone PhoneList.recursionLimit (recvBuf.store datagram).bytes := by
    rw [receivePhoneList_eq_parseFrom]
    exact PhoneList.parse_phones_iff
  rw [← hphones, clientMain, List.flatMap_eq_nil_iff]
  constructor
  · intro h
    apply List.eq_nil_iff_forall_not_mem.mpr
    intro p hp
    have hlines := h p hp
    simp [clientPhoneLines] at hlines
  · intro h p hp
    rw [h] at hp
    cases hp

/-- **What the client shows of malformed bytes.**  Whatever the buffer holds, if
the parse fails then the reader of the phone file would print nothing, and the
client prints nothing exactly if there is no start of a phone in front of the
place where the parse fails. -/
theorem clientMain_malformed (h : (receivePhoneList recvBuf datagram).2 = false) :
    readMain (recvBuf.store datagram).bytes = none ∧
      (clientMain recvBuf datagram = [] ↔
        ¬ PhoneList.StartsPhone PhoneList.recursionLimit (recvBuf.store datagram).bytes) := by
  refine ⟨?_, clientMain_eq_nil_iff⟩
  rw [receivePhoneList_eq_parseFrom] at h
  rw [readMain, PhoneList.parseFromIstream]
  simp [h]

/-- A field that a list of phones does not define, and zeros behind it: the parser
skips the one, and the first of the others is a tag that ends the message. -/
theorem unknownField_malformed :
    readMain ((Buffer.fill recvBufSize 0).store [24, 1]).bytes = none ∧
      clientMain (Buffer.fill recvBufSize 0) [24, 1] = [] := by
  have hfails : (receivePhoneList (Buffer.fill recvBufSize 0) [24, 1]).2 = false := by
    decide +kernel
  have htag : readTag ((Buffer.fill recvBufSize 0).store [24, 1]).bytes =
      some (24, 1 :: List.replicate 126 0) := by
    decide +kernel
  have hskip : skipUnknown PhoneList.recursionLimit 24 (1 :: List.replicate 126 0) =
      some (List.replicate 126 0) := by
    decide +kernel
  have hzero : readTag (List.replicate 126 0) = some (0, List.replicate 125 0) := by
    decide +kernel
  obtain ⟨hread, hclient⟩ := clientMain_malformed hfails
  refine ⟨hread, hclient.mpr fun hstarts ↦ ?_⟩
  rcases (PhoneList.startsPhone_iff htag rfl).mp hstarts with h10 | ⟨rest, hrest, hstarts⟩
  · cases h10
  · rw [hskip] at hrest
    cases hrest
    refine PhoneList.not_startsPhone (fun tag rest ht ↦ ?_) hstarts
    rw [hzero] at ht
    cases ht
    rfl

/-- An empty phone, and zeros behind it: the parse fails, and the client prints
the phone all the same. -/
theorem emptyPhone_shown :
    (receivePhoneList (Buffer.fill recvBufSize 0) [10, 0]).2 = false ∧
      clientMain (Buffer.fill recvBufSize 0) [10, 0] ≠ [] := by
  refine ⟨by decide +kernel, fun hnil ↦ ?_⟩
  have htag : readTag ((Buffer.fill recvBufSize 0).store [10, 0]).bytes =
      some (10, List.replicate 127 0) := by
    decide +kernel
  exact clientMain_eq_nil_iff.mp hnil (.phone htag)

end CppExamples.Radio
