import ExpiringStore.Wire.Field

/-!
# Messages as clients write them

Which bytes are a row of fields, said without a reader: each number in any of its lengths, and
each field with the kind of its payload. Groups, which proto3 no longer writes, are left out. A
message travels in a frame.
-/
namespace ExpiringStore

namespace Varint

/-- The ways to write a number in groups of seven bits. Groups of zeros may
follow those that it needs. -/
inductive Groups : Nat → Bytes → Prop
  | last {b : UInt8} (final : b.toNat < 0x80) : Groups b.toNat [b]
  | more {b : UInt8} {high : Nat} {bytes : Bytes} (continued : 0x80 ≤ b.toNat)
    (others : Groups high bytes) : Groups (b.toNat - 0x80 + 0x80 * high) (b :: bytes)

/-- The ways to write a 64-bit number. -/
structure Spelled (n : Nat) (bytes : Bytes) : Prop where
  groups : Groups n bytes
  short : bytes.length ≤ 10
  fits : n < UInt64.size

end Varint

namespace Field

/-- The ways to write a field: its number and the kind of its payload as one
number, and the payload. -/
inductive Spelled : Field → Bytes → Prop
  | varint {number value : Nat} {key text : Bytes} (keyed : Varint.Spelled (8 * number) key)
    (spelled : Varint.Spelled value text) : Spelled ⟨number, .varint value⟩ (key ++ text)
  | fixed64 {number : Nat} {key content : Bytes} (keyed : Varint.Spelled (8 * number + 1) key)
    (whole : content.length = 8) : Spelled ⟨number, .fixed64 content⟩ (key ++ content)
  | bytes {number : Nat} {key size content : Bytes} (keyed : Varint.Spelled (8 * number + 2) key)
    (sized : Varint.Spelled content.length size) :
    Spelled ⟨number, .bytes content⟩ (key ++ (size ++ content))
  | fixed32 {number : Nat} {key content : Bytes} (keyed : Varint.Spelled (8 * number + 5) key)
    (whole : content.length = 4) : Spelled ⟨number, .fixed32 content⟩ (key ++ content)

/-- Whether a field's number is one that a field may have: not zero, and of at most 29 bits. -/
def Numbered (field : Field) : Prop := 0 < field.number ∧ field.number < 536870912

/-- Fields one after the other. -/
inductive Row : List Field → Bytes → Prop
  | nil : Row [] []
  | cons {field : Field} {rest : List Field} {text bytes : Bytes} (numbered : field.Numbered)
    (spelled : field.Spelled text) (others : Row rest bytes) : Row (field :: rest) (text ++ bytes)

end Field

namespace Frame

/-- The frame of a message as it stands: a zero, its length in four bytes, the most significant
first, and the message. -/
inductive Spelled : Bytes → Bytes → Prop
  | mk {a b c d : UInt8} {message : Bytes}
    (sized : a.toNat * 16777216 + b.toNat * 65536 + c.toNat * 256 + d.toNat = message.length) :
    Spelled message (0 :: a :: b :: c :: d :: message)

end Frame

end ExpiringStore
