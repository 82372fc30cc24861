import CppExamples.Lib.Protobuf.Timestamp
import CppExamples.Lib.Protobuf.Utf8

/-!
# The messages of `radio.proto`

`Phone` and `PhoneList` as `radio.pb.cc` parses and serialises them.  The file
is generated, and stands three times in the sources, word for word the same: for
the programs that write and read a phone file, for the UDP client and for the
UDP server.

The two sides treat a `name` differently.  A proto3 `string` is UTF-8; the
parser checks this and fails, the serialiser checks it and only logs, so that
the check leaves no trace in the bytes.
-/

namespace CppExamples.Radio

open CppExamples.Lib.Protobuf

/-- `enum Phone_PhoneNetwork : int`, which can hold any `int`. -/
abbrev PhoneNetwork := BitVec 32

def PhoneNetwork.VODAPHONE : PhoneNetwork := 0
def PhoneNetwork.EE : PhoneNetwork := 1

/-- `enum Phone_PhoneType : int`, which can hold any `int`. -/
abbrev PhoneType := BitVec 32

def PhoneType.ANDROID : PhoneType := 0
def PhoneType.APPLE : PhoneType := 1

/-- A `Phone` message. -/
structure Phone where
  id : BitVec 32
  name : List UInt8
  network : PhoneNetwork
  active : Bool
  type : PhoneType
  created : Option Timestamp
  unknownFields : List UnknownField

/-- A `PhoneList` message. -/
structure PhoneList where
  phones : List Phone
  unknownFields : List UnknownField

namespace Phone

/-- What a new message holds. -/
def empty : Phone := ⟨0, [], 0, false, 0, none, []⟩

/-- `InternalWriteMessage` of a timestamp, behind the tag. -/
def createdBytes (t : Timestamp) : List UInt8 := varint t.byteSizeLong ++ t.internalSerialize

def internalSerialize (p : Phone) : List UInt8 :=
  fieldBytes (p.id ≠ 0) 8 (varint p.id.toNat) ++
    (fieldBytes (p.name ≠ []) 18 (varint p.name.length ++ p.name) ++
      (fieldBytes (p.network ≠ 0) 24 (varintInt32 p.network) ++
        (fieldBytes (p.active = true) 32 (varint 1) ++
          (fieldBytes (p.type ≠ 0) 40 (varintInt32 p.type) ++
            (fieldBytes (p.created.isSome = true) 50 (createdBytes (p.created.getD .empty)) ++
              serializeUnknownFields p.unknownFields)))))

def byteSizeLong (p : Phone) : Nat :=
  (if p.name ≠ [] then 1 + (varintSize p.name.length + p.name.length) else 0) +
    (match p.created with
      | some t => 1 + (varintSize t.byteSizeLong + t.byteSizeLong)
      | none => 0) +
    (if p.id ≠ 0 then 1 + varintSize p.id.toNat else 0) +
    (if p.network ≠ 0 then 1 + varintSize (p.network.signExtend 64).toNat else 0) +
    (if p.active then 1 + 1 else 0) +
    (if p.type ≠ 0 then 1 + varintSize (p.type.signExtend 64).toNat else 0) +
    (serializeUnknownFields p.unknownFields).length

/-- `Phone::_InternalParse`, with `depth` levels of nesting left.  The numbers
are the tags that the `switch` looks for; everything else is unusual.  `id` and
`active` are stored before the parser looks whether they could be read; for a
varint that it cannot read, the runtime is taken to return zero. -/
def fields (depth : Nat) : FieldParser Phone where
  run tag p bytes := match tag with
    | 8 => readInto (readVarint32 bytes) { p with id := 0 } fun v ↦ { p with id := v }
    | 18 => match readBytes bytes with
        | none => (p, none)
        | some (str, rest) => ({ p with name := str }, if isUtf8 str then some rest else none)
    | 24 => readInto (readInt32 bytes) p fun v ↦ { p with network := v }
    | 32 => readInto (readVarint64 bytes) { p with active := false } fun v ↦
        { p with active := v != 0 }
    | 40 => readInto (readInt32 bytes) p fun v ↦ { p with type := v }
    | 50 =>
        let r := parseMessage Timestamp.fields depth (p.created.getD .empty) bytes
        ({ p with created := some r.1 }, r.2)
    | tag => parseUnknown depth tag p.unknownFields bytes fun u ↦ { p with unknownFields := u }
  length_le := by
    intro tag p bytes rest h
    split at h
    · exact readInto_length (fun _ _ h ↦ (readVarint32_length h).le) h
    · split at h
      · cases h
      · rename_i hr
        dsimp only at h
        split at h
        · cases h
          exact readBytes_length hr
        · cases h
    · exact readInto_length (fun _ _ h ↦ (readInt32_length h).le) h
    · exact readInto_length (fun _ _ h ↦ (readVarint64_length h).le) h
    · exact readInto_length (fun _ _ h ↦ (readInt32_length h).le) h
    · exact parseMessage_length h
    · exact FieldParser.length_le _ h

end Phone

namespace PhoneList

def empty : PhoneList := ⟨[], []⟩

/-- One element of `phones`: the tag, the size and the message. -/
def phoneBytes (p : Phone) : List UInt8 :=
  UInt8.ofNat 10 :: (varint p.byteSizeLong ++ p.internalSerialize)

def internalSerialize (l : PhoneList) : List UInt8 :=
  l.phones.flatMap phoneBytes ++ serializeUnknownFields l.unknownFields

def byteSizeLong (l : PhoneList) : Nat :=
  l.phones.length + (l.phones.map fun p ↦ varintSize p.byteSizeLong + p.byteSizeLong).sum +
    (serializeUnknownFields l.unknownFields).length

/-- `PhoneList::_InternalParse`.  The inner loop of the source, which goes on
while another tag `10` follows, does the same as further turns of the outer one.
A phone is added before it is parsed. -/
def fields (depth : Nat) : FieldParser PhoneList where
  run tag l bytes := match tag with
    | 10 =>
        let r := parseMessage Phone.fields depth .empty bytes
        ({ l with phones := l.phones ++ [r.1] }, r.2)
    | tag => parseUnknown depth tag l.unknownFields bytes fun u ↦ { l with unknownFields := u }
  length_le := by
    intro tag l bytes rest h
    split at h
    · exact parseMessage_length h
    · exact FieldParser.length_le _ h

/-- The levels of nesting that a parser allows. -/
def recursionLimit : Nat := 100

/-- `ParseFromArray` and, on the whole content of the file, `ParseFromIstream`:
the message afterwards, and whether the parse has succeeded. -/
def parseFrom (bytes : List UInt8) : PhoneList × Bool :=
  let r := (fields recursionLimit).parse empty bytes
  (r.1, r.2 = .atLimit)

end PhoneList

end CppExamples.Radio
