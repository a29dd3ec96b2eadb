import ExpiringStore.Text.Bytes

/-!
# Variable-length integers

A number is written in groups of seven bits, the lowest first; the top bit of a byte says that more
follow. Reading takes at most ten bytes, the tenth of which may only be zero or one, so what is read
fits into 64 bits. More bytes than a number needs are accepted.
-/
namespace ExpiringStore.Varint

/-- Reads a number of at most `places` bytes, the last of which may only be zero or one. -/
def readUpTo : Nat → Bytes → Option (Nat × Bytes)
  | 0, _ => none
  | _ + 1, [] => none
  | places + 1, b :: rest =>
    if b < 0x80 then
      if places = 0 ∧ 1 < b then none else some (b.toNat, rest)
    else
      match readUpTo places rest with
      | none => none
      | some (high, rest) => some (b.toNat - 0x80 + 0x80 * high, rest)

def read (bytes : Bytes) : Option (Nat × Bytes) := readUpTo 10 bytes

def write (n : Nat) : Bytes :=
  if n < 0x80 then [n.toUInt8] else (n % 0x80 + 0x80).toUInt8 :: write (n / 0x80)
termination_by n

/-- Reading uses up at least one byte. -/
theorem length_of_readUpTo {places : Nat} {bytes rest : Bytes} {n : Nat}
    (h : readUpTo places bytes = some (n, rest)) : rest.length < bytes.length := by
  induction places generalizing bytes n rest with
  | zero => simp [readUpTo] at h
  | succ places ih =>
    cases bytes with
    | nil => simp [readUpTo] at h
    | cons b tail =>
      rw [readUpTo] at h
      split at h
      · split at h
        · exact absurd h (by simp)
        · have same : tail = rest := (Prod.mk.inj (Option.some.inj h)).2
          simp [same]
      · cases hr : readUpTo places tail with
        | none => simp [hr] at h
        | some found =>
          obtain ⟨high, left⟩ := found
          simp only [hr, Option.some.injEq, Prod.mk.injEq] at h
          have shorter := ih hr
          rw [← h.2]
          simp only [List.length_cons]
          omega

theorem length_of_read {bytes rest : Bytes} {n : Nat} (h : read bytes = some (n, rest)) :
    rest.length < bytes.length := length_of_readUpTo h

theorem toNat_toUInt8 {n : Nat} (h : n < 256) : n.toUInt8.toNat = n := by
  simp [Nat.mod_eq_of_lt h]

def capacity : Nat → Nat
  | 0 => 0
  | 1 => 2
  | places + 2 => 0x80 * capacity (places + 1)

end ExpiringStore.Varint
