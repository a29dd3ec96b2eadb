/-!
# Bytes and text

Messages arrive and leave as bytes. A text stands for its UTF-8 bytes, and bytes are a text only if
they are well-formed UTF-8.
-/
namespace ExpiringStore

abbrev Bytes := List UInt8

namespace Bytes

def ofString (s : String) : Bytes := s.toByteArray.data.toList

def toString? (bytes : Bytes) : Option String := String.fromUTF8? ⟨bytes.toArray⟩

def hexValue? (b : UInt8) : Option UInt8 :=
  if 0x30 ≤ b && b ≤ 0x39 then some (b - 0x30)
  else if 0x41 ≤ b && b ≤ 0x46 then some (b - 0x37)
  else if 0x61 ≤ b && b ≤ 0x66 then some (b - 0x57)
  else none

/-- The lower-case hexadecimal digit of a value below sixteen. -/
def hexDigit (n : UInt8) : UInt8 := if n < 10 then 0x30 + n else 0x57 + n

theorem toString?_ofString (s : String) : toString? (ofString s) = some s := by
  have valid : (ByteArray.mk (ofString s).toArray).IsValidUTF8 := s.isValidUTF8
  exact dif_pos valid

end Bytes

end ExpiringStore
