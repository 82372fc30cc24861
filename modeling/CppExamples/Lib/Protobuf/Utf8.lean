import Mathlib.Data.List.Basic

/-!
# Well-formed UTF-8

The first byte of a character determines how many bytes follow it, and which
values they can have: no surrogates, nothing above `U+10FFFF`, and no encoding
that is longer than necessary.
-/

namespace CppExamples.Lib.Protobuf

/-- The ranges of the bytes that have to follow a first byte. -/
def utf8Tail (a : UInt8) : Option (List (UInt8 × UInt8)) :=
  if a ≤ 0x7F then some []
  else if a < 0xC2 then none
  else if a ≤ 0xDF then some [(0x80, 0xBF)]
  else if a = 0xE0 then some [(0xA0, 0xBF), (0x80, 0xBF)]
  else if a = 0xED then some [(0x80, 0x9F), (0x80, 0xBF)]
  else if a ≤ 0xEF then some [(0x80, 0xBF), (0x80, 0xBF)]
  else if a = 0xF0 then some [(0x90, 0xBF), (0x80, 0xBF), (0x80, 0xBF)]
  else if a ≤ 0xF3 then some [(0x80, 0xBF), (0x80, 0xBF), (0x80, 0xBF)]
  else if a = 0xF4 then some [(0x80, 0x8F), (0x80, 0xBF), (0x80, 0xBF)]
  else none

/-- One more byte, where the bytes to come have the given ranges. -/
def utf8Next : List (UInt8 × UInt8) → UInt8 → Option (List (UInt8 × UInt8))
  | [], a => utf8Tail a
  | (lo, hi) :: ranges, b => if lo ≤ b ∧ b ≤ hi then some ranges else none

/-- The bytes are a sequence of whole characters. -/
def isUtf8 (s : List UInt8) : Bool := s.foldlM utf8Next [] = some []

end CppExamples.Lib.Protobuf
