import ExpiringStore.Text.Bytes

/-!
# Percent escapes

In a path, `%` and two hexadecimal digits stand for one byte. A percent sign that no two such digits
follow stands for itself, and so does every other byte.
-/
namespace ExpiringStore.Percent

/-- The bytes that an escaped row of bytes stands for, behind those of `acc`,
which are in reverse. -/
def decodeOnto (acc : Bytes) : Bytes → Bytes
  | [] => acc.reverse
  | 0x25 :: high :: low :: rest =>
    match Bytes.hexValue? high, Bytes.hexValue? low with
    | some h, some l => decodeOnto ((16 * h + l) :: acc) rest
    | _, _ => decodeOnto (0x25 :: acc) (high :: low :: rest)
  | b :: rest => decodeOnto (b :: acc) rest

def decode (bytes : Bytes) : Bytes := decodeOnto [] bytes

end ExpiringStore.Percent
