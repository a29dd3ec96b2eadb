/-!
# Decimal integers with a range

Reading stops at the first character that fails: one that is no digit, or a digit that leaves the
range. An unsigned number may carry a plus sign, a signed one either sign.
-/
namespace ExpiringStore

/-- Why a text is no number of the wanted range. -/
inductive IntegerError where
  | empty
  | invalidDigit
  | tooLarge
  | tooSmall
  deriving DecidableEq, Repr

def IntegerError.message : IntegerError → String
  | .empty => "cannot parse integer from empty string"
  | .invalidDigit => "invalid digit found in string"
  | .tooLarge => "number too large to fit in target type"
  | .tooSmall => "number too small to fit in target type"

/-- The value of an ASCII digit in a base of at most sixteen; letters of
either case count from ten. -/
def digitValue? (base : Nat) (c : Char) : Option Nat :=
  let value :=
    if '0' ≤ c && c ≤ '9' then some (c.toNat - '0'.toNat)
    else if 'a' ≤ c && c ≤ 'f' then some (c.toNat - 'a'.toNat + 10)
    else if 'A' ≤ c && c ≤ 'F' then some (c.toNat - 'A'.toNat + 10)
    else none
  value.filter (· < base)

/-- Reads decimal digits onto `acc`; a value over `limit` is the error `overflow`. -/
def readDigits (limit : Nat) (overflow : IntegerError) (acc : Nat) :
    List Char → Except IntegerError Nat
  | [] => .ok acc
  | c :: rest =>
    match digitValue? 10 c with
    | none => .error .invalidDigit
    | some d =>
      if 10 * acc + d > limit then .error overflow
        else readDigits limit overflow (10 * acc + d) rest

def readUnsigned (limit : Nat) : List Char → Except IntegerError Nat
  | [] => .error .empty
  | ['+'] => .error .invalidDigit
  | '+' :: digits => readDigits limit .tooLarge 0 digits
  | digits => readDigits limit .tooLarge 0 digits

def readSigned (negativeLimit limit : Nat) : List Char → Except IntegerError Int
  | [] => .error .empty
  | ['+'] => .error .invalidDigit
  | ['-'] => .error .invalidDigit
  | '+' :: digits => (readDigits limit .tooLarge 0 digits).map Int.ofNat
  | '-' :: digits => (readDigits negativeLimit .tooSmall 0 digits).map fun n => -(n : Int)
  | digits => (readDigits limit .tooLarge 0 digits).map Int.ofNat

def readInt64 : List Char → Except IntegerError Int :=
  readSigned (Int64.size / 2) (Int64.size / 2 - 1)

def readUInt64 : List Char → Except IntegerError Nat := readUnsigned (UInt64.size - 1)

end ExpiringStore
