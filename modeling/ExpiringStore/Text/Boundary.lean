import ExpiringStore.Text.Bytes

/-!
# Where a text can be cut

A byte of UTF-8 either begins a character or goes on with one that an earlier byte began. Bytes can
be cut before a byte of the first kind and at their ends, and nowhere else.
-/
namespace ExpiringStore.Bytes

/-- Whether a byte goes on with a character that an earlier one began. -/
def isContinuation (b : UInt8) : Bool := 0x80 ≤ b && b < 0xc0

/-- Whether no character is cut at an index. -/
def isBoundary (bytes : Bytes) (i : Nat) : Bool :=
  match bytes[i]? with
  | some b => i == 0 || !isContinuation b
  | none => i == bytes.length

/-- The first boundary that is met on the way back from an index, unless there is
none down to the first. -/
def boundaryFrom? (bytes : Bytes) : Nat → Option Nat
  | 0 => if bytes.isBoundary 0 then some 0 else none
  | i + 1 => if bytes.isBoundary (i + 1) then some (i + 1) else bytes.boundaryFrom? i

/-- The bytes before an index, unless a character is cut there. -/
def before? (bytes : Bytes) (i : Nat) : Option Bytes :=
  if bytes.isBoundary i then some (bytes.take i) else none

end ExpiringStore.Bytes
