import ExpiringStore.Http.Message
import ExpiringStore.Text.Percent

/-!
# Paths and routes

The path of a request's target is matched as it is written; escapes are read afterwards, within the
one segment that names a key. Two paths lead somewhere: `/keys`, and `/keys/` with one more segment.
-/
namespace ExpiringStore.Http

def untilQuery (target : Bytes) : Bytes := target.takeWhile fun b => b != 0x3f && b != 0x23

/-- The bytes of a scheme's name: letters, digits, plus, minus and point. -/
def isSchemeByte (b : UInt8) : Bool :=
  (0x61 ≤ b && b ≤ 0x7a) || (0x41 ≤ b && b ≤ 0x5a) || (0x30 ≤ b && b ≤ 0x39) ||
    b == 0x2b || b == 0x2d || b == 0x2e

/-- The part of an absolute target that follows its scheme and host, if it has a scheme. -/
def afterHost? (target : Bytes) : Option Bytes :=
  match target.dropWhile isSchemeByte with
  | 0x3a :: 0x2f :: 0x2f :: rest =>
    some (rest.dropWhile fun b => b != 0x2f && b != 0x3f && b != 0x23)
  | _ => none

/-- The path of a target. A target that is neither a path nor absolute is taken as it stands. -/
def pathOf (target : Bytes) : Bytes :=
  match target with
  | 0x2f :: _ => untilQuery target
  | _ => untilQuery ((afterHost? target).getD target)

/-- Where a path leads. -/
inductive Route where
  | keys
  | key (segment : Bytes)
  | nowhere
  deriving DecidableEq, Repr

/-- The route of a path: `/keys`, or `/keys/` and a segment that is not empty and holds no slash. -/
def Route.ofPath (path : Bytes) : Route :=
  match path with
  | [0x2f, 0x6b, 0x65, 0x79, 0x73] => .keys
  | 0x2f :: 0x6b :: 0x65 :: 0x79 :: 0x73 :: 0x2f :: segment =>
    if segment.isEmpty || segment.contains 0x2f then .nowhere else .key segment
  | _ => .nowhere

def Route.ofTarget (target : String) : Route := Route.ofPath (pathOf (Bytes.ofString target))

/-- The key that a segment names, if its bytes are a text. -/
def keyOfSegment? (segment : Bytes) : Option String := (Percent.decode segment).toString?

end ExpiringStore.Http
