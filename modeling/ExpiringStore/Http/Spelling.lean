import ExpiringStore.Http.Service
import ExpiringStore.Json.Grammar
import ExpiringStore.Rpc.Message

/-!
# Requests as clients write them

The HTTP requests that make a call of the service, in all their spellings: a key in its
path with any of its bytes escaped, and a write's members in a JSON object, in any order
and with any others among them.
-/
namespace ExpiringStore

namespace Percent

/-- The bytes that may stand for themselves in a path segment: letters, digits, and some marks. -/
def IsPlain (b : UInt8) : Prop :=
  0x61 ≤ b.toNat ∧ b.toNat ≤ 0x7a ∨ 0x41 ≤ b.toNat ∧ b.toNat ≤ 0x5a ∨
    0x30 ≤ b.toNat ∧ b.toNat ≤ 0x39 ∨
    b ∈ [0x2d, 0x2e, 0x5f, 0x7e, 0x21, 0x24, 0x26, 0x27, 0x28, 0x29, 0x2a, 0x2b, 0x2c, 0x3b,
      0x3d, 0x3a, (0x40 : UInt8)]

/-- The spellings of bytes in a path segment: any of them may be written as an escape. -/
inductive Spelled : Bytes → Bytes → Prop
  | nil : Spelled [] []
  | plain {b : UInt8} {rest text : Bytes} (plain : IsPlain b) (others : Spelled rest text) :
    Spelled (b :: rest) (b :: text)
  | escape {b high low : UInt8} {h l : Nat} {rest text : Bytes} (first : Bytes.IsHex h high)
    (second : Bytes.IsHex l low) (value : b.toNat = 16 * h + l) (others : Spelled rest text) :
    Spelled (b :: rest) (0x25 :: high :: low :: text)

def encode (bytes : Bytes) : Bytes :=
  bytes.flatMap fun b => [0x25, Bytes.hexDigit (b / 16), Bytes.hexDigit (b % 16)]

end Percent

namespace Http

/-- Nothing, or a question mark and anything. -/
inductive IsQuery : Bytes → Prop
  | none : IsQuery []
  | some (rest : Bytes) : IsQuery (0x3f :: rest)

def NamesKeys (target : String) : Prop :=
  ∃ query, IsQuery query ∧ Bytes.ofString target = Bytes.ofString "/keys" ++ query

/-- Whether a target is `/keys/` and a spelling of a key. -/
def NamesKey (target key : String) : Prop :=
  ∃ text query, Percent.Spelled (Bytes.ofString key) text ∧ IsQuery query ∧
    Bytes.ofString target = Bytes.ofString "/keys/" ++ (text ++ query)

namespace SetBody

/-- What the members of an object give: a value and a number of seconds at most once each, among any
members with other names. A whole number is written in its decimal digits. -/
inductive Members : SeenMembers → List (Literal × Json) → Prop
  | nil : Members ⟨none, none⟩ []
  | value {name content : Literal} {text : String} {seconds : Option Int64}
    {rest : List (Literal × Json)} (named : name.StandsFor "value")
    (stands : content.StandsFor text)
    (others : Members ⟨none, seconds⟩ rest) :
    Members ⟨some text, seconds⟩ ((name, .string content) :: rest)
  | ttlSeconds {name : Literal} {value : Option String} {seconds : Int64}
    {rest : List (Literal × Json)} (named : name.StandsFor "ttl_seconds")
    (others : Members ⟨value, none⟩ rest) :
    Members ⟨value, some seconds⟩
      ((name, .number (Bytes.ofString (toString seconds.toInt))) :: rest)
  | other {name : Literal} {document : Json} {text : String} {seen : SeenMembers}
    {rest : List (Literal × Json)} (named : name.StandsFor text) (notValue : text ≠ "value")
    (notSeconds : text ≠ "ttl_seconds") (others : Members seen rest) :
    Members seen ((name, document) :: rest)

/-- The bodies that carry a write: an object with its members, or without one
that has its zero value. -/
def Spelled (write : SetBody) (body : Bytes) : Prop :=
  ∃ seen members, Members seen members ∧ (Json.object members).Spelled body ∧
    seen.value.getD "" = write.value ∧ seen.ttlSeconds.getD 0 = write.ttlSeconds

/-- The texts of numbers that are no integers of 64 bits with a sign: those with a fraction or an
exponent, whole numbers out of range, and a negative zero. -/
inductive NotInt64 : Bytes → Prop
  | fractional {sign whole fraction exponent : Bytes} (signed : sign = [] ∨ sign = [0x2d])
    (wholePart : NumberPhase.Whole whole) (fractionPart : NumberPhase.Fraction fraction)
    (exponentPart : NumberPhase.Exponent exponent) (some : fraction ≠ [] ∨ exponent ≠ []) :
    NotInt64 (sign ++ (whole ++ (fraction ++ exponent)))
  | outside {n : Int} (outside : n < Int64.minValue.toInt ∨ Int64.maxValue.toInt < n) :
    NotInt64 (Bytes.ofString (toString n))
  | minusZero : NotInt64 [0x2d, 0x30]

/-- Members of an object that carries no write: a value that is no string, a number of seconds that
is no integer of 64 bits, or one of the two twice. -/
inductive Faulty : List (Literal × Json) → Prop
  | notString {name : Literal} {document : Json} {members : List (Literal × Json)}
    (member : (name, document) ∈ members) (named : name.StandsFor "value")
    (notString : ∀ content, document ≠ .string content) : Faulty members
  | notNumber {name : Literal} {document : Json} {members : List (Literal × Json)}
    (member : (name, document) ∈ members) (named : name.StandsFor "ttl_seconds")
    (notNumber : ∀ text, document ≠ .number text) : Faulty members
  | notInteger {name : Literal} {text : Bytes} {members : List (Literal × Json)}
    (member : (name, .number text) ∈ members) (named : name.StandsFor "ttl_seconds")
    (notInteger : NotInt64 text) : Faulty members
  | twice {text : String} {first second : Literal} {document other : Json}
    {front middle back : List (Literal × Json)} (known : text = "value" ∨ text = "ttl_seconds")
    (named : first.StandsFor text) (namedAgain : second.StandsFor text) :
    Faulty (front ++ (first, document) :: (middle ++ (second, other) :: back))

def document (write : SetBody) : Json :=
  .object [(Literal.ofString "value", .ofString write.value),
    (Literal.ofString "ttl_seconds", .number (Bytes.ofString (toString write.ttlSeconds.toInt)))]

end SetBody

/-- The requests that make a call on a key that is not empty, and those that list the keys. Headers
do not matter, nor does the body of a request that is no write. -/
inductive Makes : Request → Rpc.Call → Prop
  | get {target key : String} {headers : List (String × String)} {body : Bytes}
    (names : NamesKey target key) (named : key ≠ "") :
    Makes ⟨.get, target, headers, body⟩ (.get key)
  | set {target key value : String} {ttlSeconds : Int64} {headers : List (String × String)}
    {body : Bytes} (names : NamesKey target key) (named : key ≠ "")
    (fits : body.length ≤ maxBodyBytes) (carries : SetBody.Spelled ⟨value, ttlSeconds⟩ body) :
    Makes ⟨.put, target, headers, body⟩ (.set key value ttlSeconds)
  | delete {target key : String} {headers : List (String × String)} {body : Bytes}
    (names : NamesKey target key) (named : key ≠ "") :
    Makes ⟨.delete, target, headers, body⟩ (.delete key)
  | list {target : String} {headers : List (String × String)} {body : Bytes}
    (names : NamesKeys target) : Makes ⟨.get, target, headers, body⟩ .list

def escapedTarget (key : String) : String :=
  "/keys/" ++ String.ofList ((Percent.encode (Bytes.ofString key)).map fun b => Char.ofNat b.toNat)

/-- A request that makes a call: the key escaped throughout, and of a write both
members and no others. -/
def requestOf : Rpc.Call → Request
  | .get key => ⟨.get, escapedTarget key, [], []⟩
  | .set key value ttlSeconds =>
    ⟨.put, escapedTarget key, [], (SetBody.document ⟨value, ttlSeconds⟩).render⟩
  | .delete key => ⟨.delete, escapedTarget key, [], []⟩
  | .list => ⟨.get, "/keys", [], []⟩

end Http

end ExpiringStore
