import CppExamples.Lib.CString

/-!
# `show_str` and `show_hex`

The two renderings of a buffer that the programs log.  Both print one byte at a
time into a small buffer, which they then append to a string as a C string.
-/

namespace CppExamples.AsyncUdp

open CppExamples.Lib

/-- What `sprintf(buf, "%c", c)` adds to the string: the character, unless it is
the NUL that ends `buf`. -/
def showChar (c : UInt8) : List UInt8 := cstr [c, 0]

/-- `show_str(data, size)` for the `size` bytes at `data`. -/
def showStr (data : List UInt8) : List UInt8 := data.flatMap showChar

/-- `static_cast<unsigned>` of a `char`, which is signed. -/
def unsignedOfChar (c : UInt8) : Nat := (c.toInt8.toInt % 2 ^ 32).toNat

/-- What `sprintf(buf, "%02X ", static_cast<unsigned>(c) & 0xFF)` adds to the
string. -/
def showHexChar (c : UInt8) : List UInt8 :=
  cstr (formatHex 2 (unsignedOfChar c &&& 0xFF) ++ [32, 0])

/-- `show_hex(data, size)` for the `size` bytes at `data`. -/
def showHex (data : List UInt8) : List UInt8 := data.flatMap showHexChar

end CppExamples.AsyncUdp
