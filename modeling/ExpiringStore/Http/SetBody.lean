import ExpiringStore.Json.Reader
import ExpiringStore.Text.Integer

/-!
# The body of a write

A write carries an object whose members `value` and `ttl_seconds` may be left out, or an
array that holds them in that order. All other members are skipped, whatever they hold; a
known one may not occur twice.
-/
namespace ExpiringStore.Http

structure SetBody where
  value : String
  ttlSeconds : Int64
  deriving DecidableEq, Repr

/-- The members of a body that have been seen. -/
structure SeenMembers where
  value : Option String
  ttlSeconds : Option Int64
  deriving DecidableEq, Repr

namespace SetBody

def string? : Json → Option String
  | .string content => content.text?
  | _ => none

/-- The 64-bit integer that a number's text is. Fractions, exponents and a negative zero make it
another kind of number. -/
def int64OfText? (text : Bytes) : Option Int64 :=
  if text == [0x2d, 0x30] then none
  else
    match readInt64 (text.map fun b => Char.ofNat b.toNat) with
    | .ok n => some (Int64.ofInt n)
    | .error _ => none

def int64? : Json → Option Int64
  | .number text => int64OfText? text
  | _ => none

def addMember (seen : SeenMembers) (member : Literal × Json) : Option SeenMembers :=
  match member.1.text? with
  | none => none
  | some "value" =>
    if seen.value.isSome then none
    else (string? member.2).map fun v => { seen with value := some v }
  | some "ttl_seconds" =>
    if seen.ttlSeconds.isSome then none
    else (int64? member.2).map fun n => { seen with ttlSeconds := some n }
  | some _ => some seen

def ofJson? : Json → Option SetBody
  | .object members =>
    (members.foldlM addMember ⟨none, none⟩).map fun seen =>
      ⟨seen.value.getD "", seen.ttlSeconds.getD 0⟩
  | .array [] => some ⟨"", 0⟩
  | .array [value] => (string? value).map fun v => ⟨v, 0⟩
  | .array [value, ttl] => (string? value).bind fun v => (int64? ttl).map fun n => ⟨v, n⟩
  | _ => none

def parse? (body : Bytes) : Option SetBody := (Json.parse? body).bind ofJson?

end SetBody

end ExpiringStore.Http
