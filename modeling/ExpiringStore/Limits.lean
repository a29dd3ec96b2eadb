import ExpiringStore.Text.Boundary
import ExpiringStore.Time

/-!
# Limits on requests

What a front-end checks before it touches a store, how a request states a time to live, and how much
of a key a log line shows. All lengths are counted in bytes of UTF-8.
-/
namespace ExpiringStore

def maxKeyBytes : Nat := 1024

def maxValueBytes : Nat := 1048576

/-- Why a key or a value is not accepted. -/
inductive Refusal where
  | emptyKey
  | keyTooLong
  | valueTooLong
  deriving DecidableEq, Repr

def Refusal.message : Refusal → String
  | .emptyKey => "Key cannot be empty"
  | .keyTooLong => "Key exceeds maximum length of 1024 bytes"
  | .valueTooLong => "Value exceeds maximum length of 1048576 bytes"

/-- A key has at least one byte and at most `maxKeyBytes`. -/
def checkKey (key : String) : Except Refusal Unit :=
  if key.utf8ByteSize = 0 then .error .emptyKey
  else if key.utf8ByteSize > maxKeyBytes then .error .keyTooLong
  else .ok ()

/-- A value has at most `maxValueBytes`. -/
def checkValue (value : String) : Except Refusal Unit :=
  if value.utf8ByteSize > maxValueBytes then .error .valueTooLong else .ok ()

/-- A request's seconds to live as a span; zero and below mean that the entry never expires. -/
def ttlOfSeconds (seconds : Int64) : Option Duration :=
  if 0 < seconds then some (Duration.ofSeconds seconds.toUInt64) else none

def logKeyBytes : Nat := 16

/-- The longest start of `chars` that fits into `budget` bytes. -/
def takeBytes (budget : Nat) : List Char → List Char
  | [] => []
  | c :: rest => if c.utf8Size ≤ budget then c :: takeBytes (budget - c.utf8Size) rest else []

/-- What is taken is the start of what was there. -/
theorem takeBytes_append (budget : Nat) (chars : List Char) :
    ∃ rest, chars = takeBytes budget chars ++ rest := by
  induction chars generalizing budget with
  | nil => exact ⟨[], rfl⟩
  | cons c tail ih =>
    rw [takeBytes]
    split
    · obtain ⟨rest, split⟩ := ih (budget - c.utf8Size)
      exact ⟨rest, by rw [List.cons_append, ← split]⟩
    · exact ⟨c :: tail, rfl⟩

/-- A key as a log line shows it: whole if it is short, else cut after a whole
character and marked. -/
def logKey (key : String) : String :=
  if key.utf8ByteSize ≤ logKeyBytes then key
  else String.ofList (takeBytes logKeyBytes key.toList) ++ "..."

/-- The bytes of a key as a log line shows it, found by going back byte by byte from
where it would have to end. There are none if that leads beyond the first byte or the cut
goes through a character. -/
def cutLogKey? (key : Bytes) : Option Bytes :=
  if key.length ≤ logKeyBytes then some key
  else do
    let i ← key.boundaryFrom? logKeyBytes
    let front ← key.before? i
    return front ++ Bytes.ofString "..."

end ExpiringStore
