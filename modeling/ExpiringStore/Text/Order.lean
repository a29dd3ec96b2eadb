import ExpiringStore.Text.Bytes

/-!
# The order of keys

Keys are listed by the bytes of their UTF-8, the first difference deciding and a shorter key
before those that it begins.
-/
namespace ExpiringStore

/-- Whether `a` stands before `b` or is equal to it, byte by byte. -/
def Bytes.atOrBefore : Bytes → Bytes → Bool
  | [], _ => true
  | _ :: _, [] => false
  | a :: as, b :: bs => a < b || (a == b && Bytes.atOrBefore as bs)

/-- The keys in order. -/
def sortKeys (keys : List String) : List String :=
  keys.mergeSort fun a b => (Bytes.ofString a).atOrBefore (Bytes.ofString b)

end ExpiringStore
