import CppExamples.Radio.PhoneFile

/-!
# Adding phones to a list and to its file

`AddToPhoneList` of `add_data_toSerialise.cpp` takes a list, some phones to add
to it, and the name of the file that the list is kept in.  For each of the phones
it adds a copy to the list, opens the file anew, which empties it, and writes the
whole list.  Nothing is undone when a write fails, and nothing is written when
there are no phones to add.

The file system takes part in this with a choice for each of the streams
(`Disk`): whether the file can be opened, how much the stream takes before it
fails, and how much of that gets lost when the stream is closed, which is in its
destructor and reported to nobody.
-/

namespace CppExamples.Radio

open CppExamples.Lib.Protobuf

/-! ## The file -/

/-- What the file system does with one output stream. -/
structure Disk where
  /-- The file can be opened. -/
  opens : Bool
  /-- The number of bytes that the stream takes, if there is a bound. -/
  room : Option Nat
  /-- The number of bytes that the stream has taken and loses when it is closed. -/
  lost : Nat

/-- `fstream output(fName, ios::out | ios::trunc | ios::binary)` -/
def Disk.fstream (d : Disk) : Ostream := ⟨[], d.opens, d.room⟩

/-- Write a list to a file: whether `SerializeToOstream` reports success, and the
file once the stream is closed.  A file that does not exist is `none`. -/
def writePhoneList (l : PhoneList) (d : Disk) (file : Option (List UInt8)) :
    Bool × Option (List UInt8) :=
  let (ok, output) := l.serializeToOstream d.fstream
  (ok, if d.opens then some (output.written.take (output.written.length - d.lost)) else file)

/-! ## `AddToPhoneList` -/

/-- What an iteration meets with: the time, and what the file system does. -/
structure Iteration where
  now : Int
  disk : Disk

/-- What a call leaves behind. -/
structure AddResult where
  ok : Bool
  phoneList : PhoneList
  file : Option (List UInt8)

/-- The call of `AddPhoneData` on a phone that has just been added, with the
members of `phone`; its `id` goes through an `int`. -/
def copyPhone (phone : Phone) (now : Int) : Phone :=
  addPhoneData .empty phone.id.toInt phone.name phone.network phone.active phone.type now

/-- `AddToPhoneList`; `env k` is what the iteration `k` meets with. -/
def addToPhoneList (env : Nat → Iteration) (phoneList : PhoneList) (file : Option (List UInt8)) :
    List Phone → AddResult
  | [] => ⟨true, phoneList, file⟩
  | phone :: listOfPhones =>
      let phoneList := { phoneList with
        phones := phoneList.phones ++ [copyPhone phone (env 0).now] }
      let (ok, file) := writePhoneList phoneList (env 0).disk file
      if !ok then ⟨false, phoneList, file⟩
      else addToPhoneList (fun k ↦ env (k + 1)) phoneList file listOfPhones

/-! ## The copies -/

/-- A phone with the members of `phone`, created at the time `now`. -/
def Phone.createdAt (phone : Phone) (now : Int) : Phone :=
  { phone with created := some (secondsToTimestamp now), unknownFields := [] }

/-- **Every member survives the copy**, the `id` on its way through an `int`
included. -/
theorem copyPhone_eq (phone : Phone) (now : Int) : copyPhone phone now = phone.createdAt now := by
  simp only [copyPhone, addPhoneData, Phone.createdAt, Phone.empty, BitVec.ofInt_toInt]

/-- The list after the first `k` phones have been added. -/
def listAfter (env : Nat → Iteration) (l : PhoneList) (phones : List Phone) (k : Nat) : PhoneList :=
  { l with phones := l.phones ++ (phones.take k).mapIdx fun i p ↦ p.createdAt (env i).now }

theorem listAfter_zero (env : Nat → Iteration) (l : PhoneList) (phones : List Phone) :
    listAfter env l phones 0 = l := by
  simp [listAfter]

/-- The first phone, and then those behind it. -/
theorem listAfter_succ (env : Nat → Iteration) (l : PhoneList) (phone : Phone)
    (phones : List Phone) (k : Nat) :
    listAfter env l (phone :: phones) (k + 1) =
      listAfter (fun i ↦ env (i + 1)) (listAfter env l (phone :: phones) 1) phones k := by
  simp [listAfter, List.mapIdx_cons]

/-! ## One write -/

variable {l : PhoneList} {d : Disk} {file : Option (List UInt8)}

/-- A stream never takes anything but the front of what is written. -/
theorem written_write_prefix (out : Ostream) (bytes : List UInt8) :
    (out.write bytes).written <+: out.written ++ bytes := by
  unfold Ostream.write
  split
  · split
    · exact List.prefix_rfl
    · exact List.prefix_append_right_inj _ |>.mpr (List.take_prefix _ _)
  · exact List.prefix_append _ _

/-- A file that could be opened holds the front of the serialisation, whether the
write has succeeded or not. -/
theorem writePhoneList_of_opens (h : d.opens = true) :
    ∃ content, (writePhoneList l d file).2 = some content ∧ content <+: l.internalSerialize := by
  have hwritten : (l.serializeToOstream d.fstream).2.written <+: l.internalSerialize := by
    unfold PhoneList.serializeToOstream
    split
    · exact List.nil_prefix
    · exact written_write_prefix d.fstream l.internalSerialize
  exact ⟨_, if_pos h, (List.take_prefix _ _).trans hwritten⟩

/-- A file that cannot be opened is left alone, and the write has failed. -/
theorem writePhoneList_of_not_opens (h : d.opens = false) :
    writePhoneList l d file = (false, file) := by
  have hgood : (l.serializeToOstream d.fstream).1 = false := by
    unfold PhoneList.serializeToOstream
    split
    · rfl
    · simp [Ostream.write, Disk.fstream, h]
  simp [writePhoneList, hgood, h]

/-- The file after a write that has succeeded. -/
theorem writePhoneList_of_success (h : (writePhoneList l d file).1 = true) :
    (writePhoneList l d file).2 =
      some (l.internalSerialize.take (l.internalSerialize.length - d.lost)) := by
  have hopens : d.opens = true := by
    by_contra ho
    rw [writePhoneList_of_not_opens (by simpa using ho)] at h
    cases h
  have hok : (l.serializeToOstream d.fstream).1 = true := h
  have hw := (written_of_success hok).2
  simp only [writePhoneList, hopens, if_true, hw]
  rfl

/-! ## One iteration -/

variable {env : Nat → Iteration} {phone : Phone} {phones : List Phone}

/-- What an iteration does to the list. -/
theorem listAfter_one (phones : List Phone) :
    { l with phones := l.phones ++ [copyPhone phone (env 0).now] } =
      listAfter env l (phone :: phones) 1 := by
  simp [listAfter, copyPhone_eq]

/-- An iteration whose write succeeds leads to the next one. -/
theorem addToPhoneList_of_success
    (h : (writePhoneList (listAfter env l (phone :: phones) 1) (env 0).disk file).1 = true) :
    addToPhoneList env l file (phone :: phones) =
      addToPhoneList (fun k ↦ env (k + 1)) (listAfter env l (phone :: phones) 1)
        (writePhoneList (listAfter env l (phone :: phones) 1) (env 0).disk file).2 phones := by
  rw [addToPhoneList, listAfter_one phones]
  simp only [h, Bool.not_true, Bool.false_eq_true, if_false]

/-- An iteration whose write fails is the last one. -/
theorem addToPhoneList_of_failure
    (h : (writePhoneList (listAfter env l (phone :: phones) 1) (env 0).disk file).1 = false) :
    addToPhoneList env l file (phone :: phones) =
      ⟨false, listAfter env l (phone :: phones) 1,
        (writePhoneList (listAfter env l (phone :: phones) 1) (env 0).disk file).2⟩ := by
  rw [addToPhoneList, listAfter_one phones]
  simp only [h, Bool.not_false, if_true]

/-! ## A call that reports success -/

/-- The list, once all the phones have been added. -/
theorem phoneList_of_ok (h : (addToPhoneList env l file phones).ok = true) :
    (addToPhoneList env l file phones).phoneList = listAfter env l phones phones.length := by
  induction phones generalizing env l file with
  | nil => exact (listAfter_zero env l []).symm
  | cons phone phones ih =>
      cases hw : (writePhoneList (listAfter env l (phone :: phones) 1) (env 0).disk file).1 with
      | false =>
          rw [addToPhoneList_of_failure hw] at h
          cases h
      | true =>
          rw [addToPhoneList_of_success hw] at h ⊢
          exact (ih h).trans (listAfter_succ env l phone phones phones.length).symm

/-- The file, once all the phones have been added: it has been written for the
last time in the last iteration, if there is one. -/
theorem file_of_ok (h : (addToPhoneList env l file phones).ok = true) :
    let content := (listAfter env l phones phones.length).internalSerialize
    (addToPhoneList env l file phones).file = if phones = [] then file else
      some (content.take (content.length - (env (phones.length - 1)).disk.lost)) := by
  induction phones generalizing env l file with
  | nil => rfl
  | cons phone phones ih =>
      cases hw : (writePhoneList (listAfter env l (phone :: phones) 1) (env 0).disk file).1 with
      | false =>
          rw [addToPhoneList_of_failure hw] at h
          cases h
      | true =>
          rw [addToPhoneList_of_success hw] at h ⊢
          intro content
          rw [if_neg (List.cons_ne_nil _ _)]
          refine (ih h).trans ?_
          rw [← listAfter_succ env l phone phones phones.length]
          cases phones with
          | nil => exact writePhoneList_of_success hw
          | cons phone' phones => rfl

/-- What success is meant to say: the list has grown by a copy of each of the
phones, and the file holds it. -/
structure UpToDate (env : Nat → Iteration) (l : PhoneList) (phones : List Phone)
    (r : AddResult) : Prop where
  phoneList : r.phoneList =
    { l with phones := l.phones ++ phones.mapIdx fun i p ↦ p.createdAt (env i).now }
  file : r.file = some r.phoneList.internalSerialize

theorem internalSerialize_ne_nil {l : PhoneList} (h : l.phones ≠ []) :
    l.internalSerialize ≠ [] := by
  intro hnil
  have hlen := PhoneList.length_internalSerialize l
  rw [hnil, List.length_nil, PhoneList.byteSizeLong] at hlen
  have := List.length_pos_iff.mpr h
  omega

/-- **Success means that list and file are up to date** exactly if there was a
phone to add and the last stream has lost nothing when it was closed, or if there
was none and the file was up to date before. -/
theorem upToDate_iff (h : (addToPhoneList env l file phones).ok = true) :
    UpToDate env l phones (addToPhoneList env l file phones) ↔
      (phones ≠ [] ∧ (env (phones.length - 1)).disk.lost = 0) ∨
        (phones = [] ∧ file = some l.internalSerialize) := by
  have hlist := phoneList_of_ok h
  have hfile := file_of_ok h
  have hall : listAfter env l phones phones.length =
      { l with phones := l.phones ++ phones.mapIdx fun i p ↦ p.createdAt (env i).now } := by
    rw [listAfter, List.take_length]
  have hiff : UpToDate env l phones (addToPhoneList env l file phones) ↔
      (addToPhoneList env l file phones).file =
        some (listAfter env l phones phones.length).internalSerialize :=
    ⟨fun hu ↦ by rw [hu.file, hlist], fun hf ↦ ⟨hlist.trans hall, by rw [hf, hlist]⟩⟩
  rw [hiff, hfile]
  cases phones with
  | nil => simp [listAfter_zero]
  | cons phone phones =>
      have hne : (listAfter env l (phone :: phones) (phones.length + 1)).internalSerialize ≠ [] :=
        internalSerialize_ne_nil (by simp [listAfter])
      have hpos := List.length_pos_iff.mpr hne
      simp only [List.length_cons, reduceCtorEq, if_false, Option.some.injEq, ne_eq,
        not_false_eq_true, true_and, false_and, or_false, List.take_eq_self_iff]
      omega

/-- A file system on which everything works. -/
def goodDisk (_ : Nat) : Iteration := ⟨1640995200, ⟨true, none, 0⟩⟩

/-- A phone with nothing in it but its `id`, which is no `int` of that value. -/
def highPhone : Phone := { Phone.empty with id := 0xFFFFFFFF }

theorem upToDate_highPhone :
    UpToDate goodDisk .empty [highPhone] (addToPhoneList goodDisk .empty none [highPhone]) ↔
      ([highPhone] ≠ [] ∧ (goodDisk ([highPhone].length - 1)).disk.lost = 0) ∨
        ([highPhone] = [] ∧ none = some PhoneList.empty.internalSerialize) :=
  upToDate_iff (by decide)

/-- With no phone to add, success is reported on a file that holds something
else. -/
theorem noPhones_not_upToDate :
    ¬ ∀ (env : Nat → Iteration) (l : PhoneList) (file : Option (List UInt8)) (phones : List Phone),
      (addToPhoneList env l file phones).ok = true →
        UpToDate env l phones (addToPhoneList env l file phones) := by
  intro h
  have hu := (h goodDisk .empty (some [1]) [] rfl).file
  cases hu

/-! ## A call that reports failure -/

/-- The write of the phone `k` (counted from `0`) succeeds. -/
def Written (env : Nat → Iteration) (l : PhoneList) (phones : List Phone) (k : Nat) : Prop :=
  ((listAfter env l phones (k + 1)).serializeToOstream (env k).disk.fstream).1 = true

theorem written_succ (k : Nat) : Written env l (phone :: phones) (k + 1) ↔
    Written (fun i ↦ env (i + 1)) (listAfter env l (phone :: phones) 1) phones k := by
  rw [Written, Written, listAfter_succ]

/-- What is left behind if the write of the phone `k` is the first one to fail.
The copies of the phones up to this one have been added to the list and stay
there.  The file holds the front of the serialisation of that list, if it could
be opened; if it could not, it holds what it held before the call, or the front
of what the write before was for. -/
structure FailedAt (env : Nat → Iteration) (l : PhoneList) (phones : List Phone)
    (file : Option (List UInt8)) (k : Nat) (r : AddResult) : Prop where
  before : ∀ j < k, Written env l phones j
  failed : ¬ Written env l phones k
  phoneList : r.phoneList = listAfter env l phones (k + 1)
  opened : (env k).disk.opens = true → ∃ content, r.file = some content ∧
    content <+: (listAfter env l phones (k + 1)).internalSerialize
  unopened : (env k).disk.opens = false → if k = 0 then r.file = file
    else ∃ content, r.file = some content ∧ content <+: (listAfter env l phones k).internalSerialize

namespace FailedAt

variable {k : Nat} {r : AddResult}

/-- The very first write fails. -/
theorem first
    (h : (writePhoneList (listAfter env l (phone :: phones) 1) (env 0).disk file).1 = false) :
    FailedAt env l (phone :: phones) file 0 ⟨false, listAfter env l (phone :: phones) 1,
      (writePhoneList (listAfter env l (phone :: phones) 1) (env 0).disk file).2⟩ where
  before := fun j hj ↦ absurd hj (Nat.not_lt_zero j)
  failed := fun hw ↦ Bool.false_ne_true (h.symm.trans hw)
  phoneList := rfl
  opened := writePhoneList_of_opens
  unopened := by
    intro hopens
    rw [if_pos rfl, writePhoneList_of_not_opens hopens]

/-- The first write succeeds, and a later one fails. -/
theorem later
    (hw : (writePhoneList (listAfter env l (phone :: phones) 1) (env 0).disk file).1 = true)
    (h : FailedAt (fun i ↦ env (i + 1)) (listAfter env l (phone :: phones) 1) phones
      (writePhoneList (listAfter env l (phone :: phones) 1) (env 0).disk file).2 k r) :
    FailedAt env l (phone :: phones) file (k + 1) r where
  before := by
    intro j hj
    cases j with
    | zero => exact hw
    | succ j => exact (written_succ j).mpr (h.before j (Nat.lt_of_succ_lt_succ hj))
  failed := fun hk ↦ h.failed ((written_succ k).mp hk)
  phoneList := by
    rw [listAfter_succ]
    exact h.phoneList
  opened := by
    intro hopens
    rw [listAfter_succ]
    exact h.opened hopens
  unopened := by
    intro hopens
    rw [if_neg (Nat.succ_ne_zero k)]
    have hold := h.unopened hopens
    split at hold
    · -- the file is the one that the first write has left
      rename_i hzero
      subst hzero
      rw [hold]
      exact ⟨_, writePhoneList_of_success hw, List.take_prefix _ _⟩
    · rw [listAfter_succ]
      exact hold

end FailedAt

/-- **What failure leaves behind.**  If a call reports failure, then one of its
writes was the first to fail, and nothing of what was done until then has been
undone. -/
theorem addToPhoneList_failed (h : (addToPhoneList env l file phones).ok = false) :
    ∃ k < phones.length, FailedAt env l phones file k (addToPhoneList env l file phones) := by
  induction phones generalizing env l file with
  | nil => cases h
  | cons phone phones ih =>
      cases hw : (writePhoneList (listAfter env l (phone :: phones) 1) (env 0).disk file).1 with
      | false =>
          rw [addToPhoneList_of_failure hw]
          exact ⟨0, Nat.succ_pos _, .first hw⟩
      | true =>
          rw [addToPhoneList_of_success hw] at h ⊢
          obtain ⟨k, hk, hfailed⟩ := ih h
          exact ⟨k + 1, Nat.succ_lt_succ hk, hfailed.later hw⟩

/-- A disk that is full. -/
def fullDisk (_ : Nat) : Iteration := ⟨1640995200, ⟨true, some 0, 0⟩⟩

theorem addToPhoneList_failed_fullDisk :
    ∃ k < [highPhone, highPhone].length,
      FailedAt fullDisk .empty [highPhone, highPhone] (some [10, 0]) k
        (addToPhoneList fullDisk .empty (some [10, 0]) [highPhone, highPhone]) :=
  addToPhoneList_failed (by decide)

/-- On a full disk the list has grown and the file is empty. -/
theorem fullDisk_not_rolledBack :
    ¬ ∀ (env : Nat → Iteration) (l : PhoneList) (file : Option (List UInt8)) (phones : List Phone),
      (addToPhoneList env l file phones).ok = false →
        (addToPhoneList env l file phones).phoneList = l ∧
          (addToPhoneList env l file phones).file = file := by
  intro h
  have hfile := (h fullDisk .empty (some [10, 0]) [highPhone] (by decide)).2
  have hempty : (addToPhoneList fullDisk .empty (some [10, 0]) [highPhone]).file = some [] := by
    decide
  rw [hempty] at hfile
  cases hfile

end CppExamples.Radio
