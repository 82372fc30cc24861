import CppExamples.Radio.RoundTrip
import Mathlib.Data.List.Induction

/-!
# The phone file

One program, `add_data_toSerialise.cpp`, fills in the phones of a list and
writes the list to a file; another one, `read_protobuf_data.cpp`, parses the
file and prints the phones.

The writer takes any `std::string` for a name and reports success whenever the
stream has taken the bytes.  The reader accepts the file only if every phone is
readable.  So what the writer reports as written can be read back exactly if all
the names are UTF-8, up to the sizes that the runtime supports.
-/

namespace CppExamples.Radio

open CppExamples.Lib.Protobuf

/-! ## The writer -/

/-- `TimeUtil::SecondsToTimestamp` -/
def secondsToTimestamp (seconds : Int) : Timestamp := ⟨BitVec.ofInt 64 seconds, 0, []⟩

/-- `AddPhoneData`; `now` is what `time(NULL)` returns. -/
def addPhoneData (phone : Phone) (id : Int) (name : List UInt8) (phoneNet : PhoneNetwork)
    (activeStatus : Bool) (phoneType : PhoneType) (now : Int) : Phone :=
  { phone with
    id := BitVec.ofInt 32 id
    name := name
    network := phoneNet
    active := activeStatus
    type := phoneType
    created := some (secondsToTimestamp now) }

/-- A call of `AddPhoneData`, on a phone that is new in the list or on one that
is already there. -/
structure AddCall where
  target : Option Nat
  id : Int
  name : List UInt8
  phoneNet : PhoneNetwork
  activeStatus : Bool
  phoneType : PhoneType
  now : Int

def AddCall.apply (c : AddCall) (phone : Phone) : Phone :=
  addPhoneData phone c.id c.name c.phoneNet c.activeStatus c.phoneType c.now

def AddCall.run (l : PhoneList) (c : AddCall) : PhoneList :=
  match c.target with
  | none => { l with phones := l.phones ++ [c.apply .empty] }
  | some i => { l with phones := l.phones.modify i c.apply }

/-- The list after a sequence of calls. -/
def phoneListOf (calls : List AddCall) : PhoneList := calls.foldl AddCall.run .empty

/-- An output stream: the bytes it has taken, whether it is good, and how many
more bytes it will take if there is a bound. -/
structure Ostream where
  written : List UInt8
  good : Bool
  room : Option Nat

/-- Write to a stream. -/
def Ostream.write (out : Ostream) (bytes : List UInt8) : Ostream :=
  if out.good then
    match out.room with
    | none => { out with written := out.written ++ bytes }
    | some n =>
        { written := out.written ++ bytes.take n
          good := decide (bytes.length ≤ n)
          room := some (n - bytes.length) }
  else out

namespace PhoneList

/-- The largest size that a serialiser supports. -/
def maxSerialized : Nat := 2 ^ 31 - 1

/-- `SerializeToOstream` -/
def serializeToOstream (l : PhoneList) (out : Ostream) : Bool × Ostream :=
  if l.byteSizeLong > maxSerialized then (false, out)
  else ((out.write l.internalSerialize).good, out.write l.internalSerialize)

/-- `ParseFromIstream`, on the whole content of a file. -/
def parseFromIstream (content : List UInt8) : PhoneList × Bool := parseFrom content

end PhoneList

/-! ## The reader -/

/-- A line that the reader prints. -/
inductive PhoneLine where
  | phoneId (id : BitVec 32)
  | phoneName (name : List UInt8)
  | phoneNetwork (network : PhoneNetwork)
  | phoneActiveStatus (active : Bool)
  | phoneType (type : PhoneType)
  | phoneGetMetadata
  | phoneGetTypeName
  | createdOn (created : Timestamp)

/-- What the reader prints for a phone. -/
def phoneLines (phone : Phone) : List PhoneLine :=
  [.phoneId phone.id, .phoneName phone.name, .phoneNetwork phone.network,
    .phoneActiveStatus phone.active, .phoneType phone.type, .phoneGetMetadata, .phoneGetTypeName]
    ++ (phone.created.map .createdOn).toList

/-- `ReadProtobufList` -/
def readProtobufList (phoneList : PhoneList) : List PhoneLine := phoneList.phones.flatMap phoneLines

/-- The reader on the content of a file; `none` is `Failed to parse address book.` -/
def readMain (content : List UInt8) : Option (List PhoneLine) :=
  let (phoneList, ok) := PhoneList.parseFromIstream content
  if ok then some (readProtobufList phoneList) else none

/-! ## What is written -/

theorem mem_modify {α : Type} {f : α → α} {l : List α} {i : Nat} {a : α}
    (h : a ∈ l.modify i f) : a ∈ l ∨ ∃ b ∈ l, a = f b := by
  obtain ⟨j, hj⟩ := List.mem_iff_getElem?.mp h
  rw [List.getElem?_modify] at hj
  obtain ⟨b, hb, rfl⟩ := Option.map_eq_some_iff.mp hj
  split
  · exact .inr ⟨b, List.mem_of_getElem? hb, rfl⟩
  · exact .inl (List.mem_of_getElem? hb)

/-- A list that is built by calls holds only the fields of `radio.proto`. -/
theorem plain_phoneListOf (calls : List AddCall) : (phoneListOf calls).Plain := by
  induction calls using List.reverseRecOn with
  | nil => exact ⟨rfl, nofun⟩
  | append_singleton calls c ih =>
      have happly {p : Phone} (hp : p.unknownFields = []) : (c.apply p).Plain :=
        ⟨hp, fun t ht ↦ by cases ht; rfl⟩
      rw [phoneListOf, List.foldl_append]
      change (c.run (phoneListOf calls)).Plain
      unfold AddCall.run
      split
      · refine ⟨ih.unknownFields, fun p hp ↦ ?_⟩
        rcases List.mem_append.mp hp with hp | hp
        · exact ih.phones p hp
        · rw [List.mem_singleton.mp hp]
          exact happly rfl
      · refine ⟨ih.unknownFields, fun p hp ↦ ?_⟩
        rcases mem_modify hp with hp | ⟨q, hq, rfl⟩
        · exact ih.phones p hp
        · exact happly (ih.phones q hq).unknownFields

/-- A stream that is still good has taken all the bytes. -/
theorem written_write {out : Ostream} {bytes : List UInt8} (h : (out.write bytes).good = true) :
    (out.write bytes).written = out.written ++ bytes := by
  cases hg : out.good with
  | false => simp [Ostream.write, hg] at h
  | true =>
      cases hr : out.room with
      | none => simp [Ostream.write, hg, hr]
      | some n =>
          simp only [Ostream.write, hg, hr, if_true] at h ⊢
          rw [List.take_of_length_le (of_decide_eq_true h)]

/-- What `SerializeToOstream` has done when it reports success. -/
theorem written_of_success {l : PhoneList} {out : Ostream}
    (h : (l.serializeToOstream out).1 = true) :
    l.byteSizeLong ≤ PhoneList.maxSerialized ∧
      (l.serializeToOstream out).2.written = out.written ++ l.internalSerialize := by
  unfold PhoneList.serializeToOstream at h ⊢
  split at h
  · cases h
  · rename_i hs
    rw [if_neg hs]
    exact ⟨Nat.le_of_not_lt hs, written_write h⟩

/-! ## What can be read back -/

/-- The parse of a list that has been written. -/
theorem parseFrom_internalSerialize {l : PhoneList} (hp : l.Plain)
    (hr : ∀ p ∈ l.phones, p.Readable) : PhoneList.parseFrom l.internalSerialize = (l, true) := by
  have hparse : (PhoneList.fields PhoneList.recursionLimit).parse .empty
      (l.internalSerialize ++ []) = (l, .atLimit) := PhoneList.parse_internalSerialize hp hr []
  rw [List.append_nil] at hparse
  rw [PhoneList.parseFrom, hparse]
  rfl

/-- The parse of a list with a phone that is not readable. -/
theorem parseFrom_internalSerialize_failed {l : PhoneList} (hp : l.Plain)
    (hr : ¬ ∀ p ∈ l.phones, p.Readable) :
    (PhoneList.parseFrom l.internalSerialize).2 = false := by
  have hfail : ((PhoneList.fields PhoneList.recursionLimit).parse .empty l.internalSerialize).2 =
      .failed := PhoneList.parse_phones_failed hp.phones hr _
  simp [PhoneList.parseFrom, hfail]

/-- **What the writer reports as written can be read back exactly if it is
readable.**  For every sequence of calls and every new file whose stream reports
success, the reader parses the very list that was written, and prints its
phones, if and only if every name is UTF-8 and no phone is longer than a parser
supports; otherwise the reader reports a failure. -/
theorem readMain_written_iff (calls : List AddCall) {out : Ostream} (hnew : out.written = [])
    (hok : ((phoneListOf calls).serializeToOstream out).1 = true) :
    let l := phoneListOf calls
    let file := (l.serializeToOstream out).2.written
    ((PhoneList.parseFromIstream file = (l, true) ∧ readMain file = some (readProtobufList l)) ↔
      ∀ p ∈ l.phones, p.Readable) ∧
      ((¬ ∀ p ∈ l.phones, p.Readable) → readMain file = none) := by
  intro l file
  have hp : l.Plain := plain_phoneListOf calls
  obtain ⟨-, hw⟩ := written_of_success hok
  have hfile : file = l.internalSerialize := hw.trans (by rw [hnew, List.nil_append])
  have hbad (hr : ¬ ∀ p ∈ l.phones, p.Readable) : (PhoneList.parseFromIstream file).2 = false := by
    rw [hfile]
    exact parseFrom_internalSerialize_failed hp hr
  refine ⟨⟨fun h ↦ ?_, fun hr ↦ ?_⟩, fun hr ↦ ?_⟩
  · by_contra hr
    have := hbad hr
    rw [h.1] at this
    cases this
  · have hparse : PhoneList.parseFromIstream file = (l, true) := by
      rw [hfile]
      exact parseFrom_internalSerialize hp hr
    exact ⟨hparse, by rw [readMain, hparse]; rfl⟩
  · have := hbad hr
    simp [readMain, this]

/-- A file that has just been opened. -/
def newFile : Ostream := ⟨[], true, none⟩

/-- The two phones that the writer adds, at one time. -/
def fresnoCalls (now : Int) : List AddCall :=
  [⟨none, 1, [70, 114, 101, 115, 110, 111], .EE, true, .ANDROID, now⟩,
    ⟨none, 2, [70, 114, 101, 115, 110, 111, 50], .VODAPHONE, true, .APPLE, now⟩]

theorem readMain_fresno :
    let l := phoneListOf (fresnoCalls 1640995200)
    readMain (l.serializeToOstream newFile).2.written = some (readProtobufList l) := by
  have hok : ((phoneListOf (fresnoCalls 1640995200)).serializeToOstream newFile).1 = true := by
    decide
  have hr : ∀ p ∈ (phoneListOf (fresnoCalls 1640995200)).phones, p.Readable := by decide
  exact ((readMain_written_iff _ rfl hok).1.mpr hr).2

/-- A phone whose name is the byte `FF`. -/
def badNameCalls : List AddCall := [⟨none, 1, [0xFF], .EE, true, .ANDROID, 0⟩]

/-- A name that is not UTF-8 is written and cannot be read back. -/
theorem readMain_badName :
    ¬ ∀ (calls : List AddCall) (out : Ostream), out.written = [] →
      ((phoneListOf calls).serializeToOstream out).1 = true →
        readMain ((phoneListOf calls).serializeToOstream out).2.written =
          some (readProtobufList (phoneListOf calls)) := by
  intro h
  have hread := h badNameCalls newFile rfl (by decide)
  have hnone :
      readMain ((phoneListOf badNameCalls).serializeToOstream newFile).2.written = none := by
    rfl
  rw [hnone] at hread
  cases hread

end CppExamples.Radio
