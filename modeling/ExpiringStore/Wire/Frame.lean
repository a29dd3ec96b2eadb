import ExpiringStore.Wire.Field

/-!
# Message frames

A call's messages travel in frames: a byte that is zero for a message as it stands, four bytes of
its length, the most significant first, and the message. A call has one message; frames behind the
first have to be sound and are not looked at further.
-/
namespace ExpiringStore

/-- Why a body is not the frames of a call. -/
inductive FrameError where
  | malformed
  | tooLarge
  deriving DecidableEq, Repr

namespace Frame

def maxMessageBytes : Nat := 4194304

def wrap (message : Bytes) : Bytes :=
  let n := message.length
  0 :: (n / 16777216).toUInt8 :: (n / 65536).toUInt8 :: (n / 256).toUInt8 :: n.toUInt8 :: message

def lengthOf (a b c d : UInt8) : Nat :=
  ((a.toNat * 256 + b.toNat) * 256 + c.toNat) * 256 + d.toNat

/-- The message of the first frame, and what follows that frame. -/
def read (bytes : Bytes) : Except FrameError (Bytes × Bytes) :=
  match bytes with
  | flag :: a :: b :: c :: d :: rest =>
    if flag != 0 then .error .malformed
    else if lengthOf a b c d > maxMessageBytes then .error .tooLarge
    else
      match Bytes.split? (lengthOf a b c d) rest with
      | some (message, rest) => .ok (message, rest)
      | none => .error .malformed
  | _ => .error .malformed

/-- Reading a frame uses up bytes, so a body has finitely many. -/
theorem length_of_read {bytes message rest : Bytes} (h : read bytes = .ok (message, rest)) :
    rest.length < bytes.length := by
  unfold read at h
  split at h
  · rename_i flag a b c d tail
    split at h
    · simp at h
    · split at h
      · simp at h
      · split at h
        · rename_i hs
          have notLonger := Bytes.length_of_splitOnto hs
          simp only [Except.ok.injEq, Prod.mk.injEq] at h
          rw [← h.2]
          simp only [List.length_cons]
          omega
        · simp at h
  · simp at h

/-- The four bytes of a frame's length spell it, if it fits. -/
theorem lengthOf_wrap {n : Nat} (fits : n < UInt32.size) :
    lengthOf (n / 16777216).toUInt8 (n / 65536).toUInt8 (n / 256).toUInt8 n.toUInt8 = n := by
  have size : UInt32.size = 4294967296 := rfl
  simp only [lengthOf, Nat.toUInt8_eq, UInt8.toNat_ofNat']
  omega

/-- A message of admissible size is read back from its frame. -/
theorem read_wrap {message : Bytes} (h : message.length ≤ maxMessageBytes) (rest : Bytes) :
    read (wrap message ++ rest) = .ok (message, rest) := by
  have fits : message.length < UInt32.size := Nat.lt_of_le_of_lt h (by decide)
  simp only [wrap, List.cons_append, read, lengthOf_wrap fits]
  rw [if_neg (by decide), if_neg (Nat.not_lt.mpr h), Bytes.split?_append]

/-- The size of a message is judged before anything else of it. -/
theorem read_wrap_of_large {message : Bytes} (fits : message.length < UInt32.size)
    (large : maxMessageBytes < message.length) (rest : Bytes) :
    read (wrap message ++ rest) = .error .tooLarge := by
  simp only [wrap, List.cons_append, read, lengthOf_wrap fits]
  rw [if_neg (by decide), if_pos large]

/-- Whether all that is there is the header of a message of which nothing has come. -/
def isBareHeader : Bytes → Bool
  | [flag, a, b, c, d] =>
    flag == 0 && decide (0 < lengthOf a b c d ∧ lengthOf a b c d ≤ maxMessageBytes)
  | _ => false

/-- The first fault in the frames behind the first of a body, whose messages have to be accepted by
`sound`. A header is used up as soon as it is read, so a body may end right behind one. -/
def faultIn (sound : Bytes → Bool) (bytes : Bytes) : Option FrameError :=
  if bytes.isEmpty || isBareHeader bytes then none
  else
    match _h : read bytes with
    | .error e => some e
    | .ok (message, rest) => if sound message then faultIn sound rest else some .malformed
termination_by bytes.length
decreasing_by exact length_of_read _h

end Frame

end ExpiringStore
