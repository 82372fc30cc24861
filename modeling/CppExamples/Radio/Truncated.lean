import CppExamples.Radio.AddToPhoneList
import CppExamples.Radio.Merge

/-!
# Files that have been cut off

A write of a phone list may be cut off anywhere: the disk is full, or the stream
loses bytes when it is closed.  The file then holds the front of what was to be
written.  A reader either refuses such a file, or finds in it the first phones of
the list and nothing else: it never reads a part of a phone, and it never takes
the bytes for something that they are not.

`addToPhoneList_readMain` says this of the programs: whatever the file system
does in a call of `AddToPhoneList`, and whether the call reports success or not,
a file that has been opened is refused by the reader or printed as a front of the
list that is in memory.  This holds of every list that a program can have made or
parsed: names that are not UTF-8 and phones that are too long are refused, too.
-/

namespace CppExamples.Radio

open CppExamples.Lib.Protobuf

variable {depth : Nat}

/-- The fields that `radio.proto` does not define, in a phone and in its timestamp,
are such as a parser yields. -/
structure Phone.UnknownWellFormed (depth : Nat) (p : Phone) : Prop where
  created : ∀ t, p.created = some t → t.WellFormed depth
  unknownFields : Kept Phone.knownTags (depth + 1) p.unknownFields

theorem Phone.UnknownWellFormed.wellFormed {p : Phone} (hp : p.UnknownWellFormed depth)
    (hn : isUtf8 p.name = true) : p.WellFormed depth :=
  ⟨hn, hp.created, hp.unknownFields⟩

namespace PhoneList

/-- The same for the phones of a list and for the list itself. -/
structure UnknownWellFormed (depth : Nat) (l : PhoneList) : Prop where
  phones : ∀ p ∈ l.phones, p.UnknownWellFormed depth
  unknownFields : Kept [10] (depth + 2) l.unknownFields

/-- Lists that have been parsed are such lists. -/
theorem WellFormed.unknownWellFormed {l : PhoneList} (hl : l.WellFormed depth) :
    l.UnknownWellFormed depth :=
  ⟨fun p hp ↦ ⟨(hl.phones p hp).created, (hl.phones p hp).unknownFields⟩, hl.unknownFields⟩

variable {l : PhoneList} {s : List UInt8}

/-- The first `k` of the phones and the unknown fields of a list. -/
def front (l : PhoneList) (k : Nat) : PhoneList where
  phones := l.phones.take k
  unknownFields := l.unknownFields.take (k - l.phones.length)

/-! ## The fields of a list, one after the other -/

/-- A phone or an unknown field. -/
abbrev Element := Phone ⊕ UnknownField

def elements (l : PhoneList) : List Element := l.phones.map .inl ++ l.unknownFields.map .inr

def elementBytes : Element → List UInt8
  | .inl p => phoneBytes p
  | .inr f => f.serialize

def addElement (l : PhoneList) : Element → PhoneList
  | .inl p => { l with phones := l.phones ++ [p] }
  | .inr f => { l with unknownFields := l.unknownFields ++ [f] }

theorem serializeUnknownFields_eq (us : List UnknownField) :
    serializeUnknownFields us = us.flatMap UnknownField.serialize := by
  induction us with
  | nil => rfl
  | cons f us ih => rw [serializeUnknownFields, ih, List.flatMap_cons]

theorem internalSerialize_eq (l : PhoneList) :
    l.internalSerialize = l.elements.flatMap elementBytes := by
  simp [internalSerialize, elements, serializeUnknownFields_eq, List.flatMap_append,
    List.flatMap_map, elementBytes]

theorem elements_take (l : PhoneList) (k : Nat) : l.elements.take k = (l.front k).elements := by
  simp [elements, front, List.take_append]

theorem foldl_addElement (l l' : PhoneList) :
    l'.elements.foldl addElement l = l.mergeFrom l' := by
  have hphones (ps : List Phone) (l : PhoneList) : (ps.map .inl).foldl addElement l =
      { l with phones := l.phones ++ ps } := by
    induction ps generalizing l with
    | nil => simp
    | cons p ps ih => rw [List.map_cons, List.foldl_cons, ih]; simp [addElement]
  have hunknown (us : List UnknownField) (l : PhoneList) : (us.map .inr).foldl addElement l =
      { l with unknownFields := l.unknownFields ++ us } := by
    induction us generalizing l with
    | nil => simp
    | cons f us ih => rw [List.map_cons, List.foldl_cons, ih]; simp [addElement]
  rw [elements, List.foldl_append, hphones, hunknown, mergeFrom]

/-- Every element is one field, a bad one if it is a phone that is not readable. -/
theorem isField_element (hl : l.UnknownWellFormed depth) {e : Element} (he : e ∈ l.elements)
    (m : PhoneList) : (fields (depth + 2)).IsField m (elementBytes e) (m.addElement e) ∨
      (fields (depth + 2)).IsBadField m (elementBytes e) := by
  rcases List.mem_append.mp he with he | he
  · obtain ⟨p, hp, rfl⟩ := List.mem_map.mp he
    have htag : readTag (elementBytes (.inl p)) = some (10, _) := readTag_cons (by decide) _
    by_cases hr : p.Readable
    · have hrun := run_wellFormed_phone ((hl.phones p hp).wellFormed hr.name) hr.size m []
      rw [List.append_nil] at hrun
      exact .inl ⟨10, _, htag, rfl, hrun⟩
    · refine .inr ⟨10, _, htag, rfl, fun more ↦ ?_⟩
      rw [List.append_assoc]
      exact run_phone_failed hr m more
  · obtain ⟨f, hf, rfl⟩ := List.mem_map.mp he
    obtain ⟨hw, hk⟩ := hl.unknownFields f hf
    have hrun := hw.run_body m.unknownFields []
    rw [List.append_nil] at hrun
    refine .inl ⟨f.tag, f.body, ?_, UnknownField.isEndTag_tag hw.isNumber, ?_⟩
    · rw [elementBytes, f.serialize_eq]
      exact readTag_varint (UnknownField.tag_lt hw.isNumber) _
    · rw [fields_run_unknown hk, parseUnknown, hrun]
      rfl

/-- **The front of a list is refused or is a shorter list.** -/
theorem parseFrom_front (hl : l.UnknownWellFormed 98) (h : s <+: l.internalSerialize) :
    (parseFrom s).2 = false ∨ ∃ k, s = (l.front k).internalSerialize ∧
      parseFrom s = (l.front k, true) := by
  rw [internalSerialize_eq] at h
  rcases FieldParser.parse_front (fields_local recursionLimit)
    (fun e he m ↦ isField_element hl he m) h empty with hbad | ⟨k, _, rfl, hp⟩
  · refine .inl ?_
    rw [parseFrom, hbad]
    rfl
  · refine .inr ⟨k, ?_, ?_⟩
    · rw [elements_take, ← internalSerialize_eq]
    · rw [parseFrom, hp, elements_take, foldl_addElement]
      rfl

end PhoneList

/-! ## The file of `AddToPhoneList` -/

variable {env : Nat → Iteration} {l : PhoneList} {file : Option (List UInt8)} {phones : List Phone}

theorem listAfter_phones_prefix {j k : Nat} (h : j ≤ k) :
    (listAfter env l phones j).phones <+: (listAfter env l phones k).phones := by
  obtain ⟨more, hmore⟩ := List.take_prefix_take_left (l := phones) h
  simp only [listAfter, ← hmore, List.mapIdx_append, ← List.append_assoc]
  exact List.prefix_append _ _

/-- A file that has been opened holds the front of the list, as it was in memory
at some time. -/
theorem exists_file_prefix (l : PhoneList) (file : Option (List UInt8)) (hne : phones ≠ [])
    (hopens : (env 0).disk.opens = true) :
    let r := addToPhoneList env l file phones
    ∃ k ≤ phones.length, ∃ content, r.file = some content ∧
      content <+: (listAfter env l phones k).internalSerialize ∧
        (listAfter env l phones k).phones <+: r.phoneList.phones := by
  intro r
  cases hok : r.ok with
  | true =>
      have hfile := (file_of_ok hok).trans (if_neg hne)
      refine ⟨phones.length, Nat.le_refl _, _, hfile, List.take_prefix _ _, [], ?_⟩
      rw [phoneList_of_ok hok, List.append_nil]
  | false =>
      obtain ⟨k, hk, hfailed⟩ := addToPhoneList_failed hok
      cases hkopens : (env k).disk.opens with
      | true =>
          obtain ⟨content, hfile, hcontent⟩ := hfailed.opened hkopens
          refine ⟨k + 1, hk, content, hfile, hcontent, [], ?_⟩
          rw [hfailed.phoneList, List.append_nil]
      | false =>
          have hfile := hfailed.unopened hkopens
          split at hfile
          · rename_i h0
            rw [h0, hopens] at hkopens
            cases hkopens
          · obtain ⟨content, hfile, hcontent⟩ := hfile
            refine ⟨k, hk.le, content, hfile, hcontent, ?_⟩
            rw [hfailed.phoneList]
            exact listAfter_phones_prefix (Nat.le_succ k)

/-- A file that has not been opened is what it was before. -/
theorem file_of_not_opened (h : phones = [] ∨ (env 0).disk.opens = false) :
    (addToPhoneList env l file phones).file = file := by
  cases phones with
  | nil => rfl
  | cons phone phones =>
      have hw : writePhoneList (listAfter env l (phone :: phones) 1) (env 0).disk file = _ :=
        writePhoneList_of_not_opens (h.resolve_left (List.cons_ne_nil _ _))
      rw [addToPhoneList_of_failure (by rw [hw]), hw]

/-- The phones of the list are those it had and copies of those that are added. -/
theorem mem_listAfter {k : Nat} {p : Phone} (h : p ∈ (listAfter env l phones k).phones) :
    p ∈ l.phones ∨ ∃ q ∈ phones, ∃ now, p = q.createdAt now := by
  rcases List.mem_append.mp h with h | h
  · exact .inl h
  · obtain ⟨i, hi, rfl⟩ := List.mem_mapIdx.mp h
    exact .inr ⟨_, List.mem_of_mem_take (List.getElem_mem hi), _, rfl⟩

theorem unknownWellFormed_listAfter (hl : l.UnknownWellFormed 98) (k : Nat) :
    (listAfter env l phones k).UnknownWellFormed 98 := by
  refine ⟨fun p hp ↦ ?_, hl.unknownFields⟩
  rcases mem_listAfter hp with hp | ⟨q, hq, now, rfl⟩
  · exact hl.phones p hp
  · exact ⟨fun t ht ↦ by cases ht; exact Kept.nil, .nil⟩

/-- **A torn file is never misread.**  Whatever the file system does, the reader
refuses a file that has been opened, or prints some of the phones that are in
memory: the first ones, in their order.  The names and the sizes of the phones do
not matter. -/
theorem addToPhoneList_readMain (hl : l.UnknownWellFormed 98) :
    let r := addToPhoneList env l file phones
    if phones = [] ∨ (env 0).disk.opens = false then r.file = file
    else ∃ content, r.file = some content ∧
      (readMain content = none ∨
        ∃ k, readMain content = some ((r.phoneList.phones.take k).flatMap phoneLines)) := by
  intro r
  split
  · exact file_of_not_opened ‹_›
  · rename_i hopened
    obtain ⟨hne, hopens⟩ := not_or.mp hopened
    obtain ⟨k, _, content, hfile, hcontent, hphones⟩ :=
      exists_file_prefix l file hne (Bool.eq_true_of_not_eq_false hopens)
    refine ⟨content, hfile, ?_⟩
    rcases PhoneList.parseFrom_front (unknownWellFormed_listAfter hl k) hcontent with
      hbad | ⟨j, _, hparse⟩
    · refine .inl ?_
      simp [readMain, PhoneList.parseFromIstream, hbad]
    · refine .inr ⟨min j (listAfter env l phones k).phones.length, ?_⟩
      obtain ⟨more, hmore⟩ := hphones
      rw [readMain, PhoneList.parseFromIstream, hparse, ← hmore,
        List.take_append_of_le_length (Nat.min_le_right _ _), ← List.take_take, List.take_length]
      rfl

/-- A disk that takes the first write, and then is full in the middle of a phone. -/
def tornDisk (k : Nat) : Iteration := ⟨1640995200, ⟨true, if k = 0 then none else some 20, 0⟩⟩

/-- The list has unknown fields, and one of the phones a name that is not UTF-8. -/
theorem addToPhoneList_readMain_tornDisk :
    let phones := [highPhone, { highPhone with name := [0xFF] }]
    let r := addToPhoneList tornDisk PhoneList.newerList none phones
    if phones = [] ∨ (tornDisk 0).disk.opens = false then r.file = none
    else ∃ content, r.file = some content ∧
      (readMain content = none ∨
        ∃ k, readMain content = some ((r.phoneList.phones.take k).flatMap phoneLines)) := by
  have hparse : PhoneList.parseFrom PhoneList.newerBytes = (PhoneList.newerList, true) := rfl
  exact addToPhoneList_readMain (PhoneList.wellFormed_of_parseFrom hparse).unknownWellFormed

end CppExamples.Radio
