/-!
# Network addresses

Addresses of both families and their canonical text: a version 6 address leaves out its
longest run of at least two zero groups, the first of equally long ones, and shows an embedded
version 4 address in dots.
-/
namespace ExpiringStore

structure Ipv4 where
  a : UInt8
  b : UInt8
  c : UInt8
  d : UInt8
  deriving DecidableEq, Repr

/-- A version 6 address: eight groups, the most significant first. -/
structure Ipv6 where
  groups : List UInt16
  eight : groups.length = 8 := by decide
  deriving DecidableEq, Repr

inductive IpAddr where
  | v4 (addr : Ipv4)
  | v6 (addr : Ipv6)
  deriving DecidableEq, Repr

structure Endpoint where
  ip : IpAddr
  port : UInt16
  deriving DecidableEq, Repr

namespace Ipv4

def unspecified : Ipv4 := ⟨0, 0, 0, 0⟩

def text (ip : Ipv4) : String :=
  toString ip.a.toNat ++ "." ++ toString ip.b.toNat ++ "." ++ toString ip.c.toNat ++ "." ++
    toString ip.d.toNat

/-- The two groups that hold this address within a version 6 one. -/
def toGroups (ip : Ipv4) : List UInt16 :=
  [ip.a.toUInt16 * 256 + ip.b.toUInt16, ip.c.toUInt16 * 256 + ip.d.toUInt16]

def ofGroups (high low : UInt16) : Ipv4 :=
  ⟨(high / 256).toUInt8, high.toUInt8, (low / 256).toUInt8, low.toUInt8⟩

end Ipv4

namespace Ipv6

/-- The length of the run of zero groups that starts at `i`. -/
def zerosAt (groups : List UInt16) (i : Nat) : Nat := ((groups.drop i).takeWhile (· == 0)).length

/-- Where the longest run of zero groups starts, the first of equally long ones. -/
def longestZeros (groups : List UInt16) : Nat :=
  (List.range groups.length).foldl
    (fun best i => if zerosAt groups best < zerosAt groups i then i else best) 0

def groupsText (groups : List UInt16) : String :=
  ":".intercalate (groups.map fun g => String.ofList (Nat.toDigits 16 g.toNat))

/-- Groups with their longest run of zeros left out, where it has at least two. -/
def shortText (groups : List UInt16) : String :=
  let start := longestZeros groups
  let count := zerosAt groups start
  if count < 2 then groupsText groups
  else groupsText (groups.take start) ++ "::" ++ groupsText (groups.drop (start + count))

def text (ip : Ipv6) : String :=
  match ip.groups with
  | [0, 0, 0, 0, 0, 0xffff, high, low] => "::ffff:" ++ (Ipv4.ofGroups high low).text
  | groups => shortText groups

end Ipv6

namespace IpAddr

def text : IpAddr → String
  | .v4 ip => ip.text
  | .v6 ip => ip.text

/-- The address that stands for all of a machine's own in its family. -/
def isUnspecified : IpAddr → Bool
  | .v4 ip => ip == Ipv4.unspecified
  | .v6 ip => ip.groups.all (· == 0)

def isLoopback : IpAddr → Bool
  | .v4 ip => ip.a == 127
  | .v6 ip => ip.groups == [0, 0, 0, 0, 0, 0, 0, 1]

def sameFamily : IpAddr → IpAddr → Bool
  | .v4 _, .v4 _ => true
  | .v6 _, .v6 _ => true
  | _, _ => false

end IpAddr

/-- An endpoint as `address:port`, a version 6 address in brackets. -/
def Endpoint.text (e : Endpoint) : String :=
  match e.ip with
  | .v4 ip => ip.text ++ ":" ++ toString e.port.toNat
  | .v6 ip => "[" ++ ip.text ++ "]:" ++ toString e.port.toNat

end ExpiringStore
