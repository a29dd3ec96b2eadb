import ExpiringStore.Address.Basic
import ExpiringStore.Text.Integer

/-!
# Reading addresses

A version 4 address is four decimal numbers without leading zeros. A version 6 address is
eight groups of up to four hexadecimal digits, the last two of which may be a version 4
address; one `::` stands for the groups that are left out, of which there is at least one.
Nothing may follow an address.
-/
namespace ExpiringStore

namespace AddressReader

def digitsValue (base : Nat) (digits : List Char) : Nat :=
  digits.foldl (fun acc c => base * acc + (digitValue? base c).getD 0) 0

/-- A number of one to `places` digits, all that stand there, and what follows it. Unless `padded`,
a zero is followed by no further digit. -/
def number (base places : Nat) (padded : Bool) (cs : List Char) : Option (Nat × List Char) :=
  let digits := cs.takeWhile fun c => (digitValue? base c).isSome
  if digits.length = 0 || digits.length > places then none
  else if !padded && digits.head? == some '0' && digits.length > 1 then none
  else some (digitsValue base digits, cs.drop digits.length)

def mark (c : Char) : List Char → Option (List Char)
  | [] => none
  | x :: rest => if x = c then some rest else none

def octet (cs : List Char) : Option (UInt8 × List Char) :=
  match number 10 3 false cs with
  | none => none
  | some (n, rest) => if n < 256 then some (n.toUInt8, rest) else none

def ipv4 (cs : List Char) : Option (Ipv4 × List Char) := do
  let (a, cs) ← octet cs
  let cs ← mark '.' cs
  let (b, cs) ← octet cs
  let cs ← mark '.' cs
  let (c, cs) ← octet cs
  let cs ← mark '.' cs
  let (d, cs) ← octet cs
  return (⟨a, b, c, d⟩, cs)

def group (cs : List Char) : Option (UInt16 × List Char) :=
  (number 16 4 true cs).map fun (n, rest) => (n.toUInt16, rest)

/-- An item that stands behind a colon unless it is the first. -/
def item {α : Type} (first : Bool) (read : List Char → Option (α × List Char)) (cs : List Char) :
    Option (α × List Char) :=
  if first then read cs else (mark ':' cs).bind read

/-- What a row of groups came to. -/
structure Row where
  groups : List UInt16
  embedded : Bool
  rest : List Char
  deriving DecidableEq, Repr

/-- As many groups as stand there, up to `room` of them. A version 4 address takes the room of two
groups and ends the row. -/
def row (first : Bool) : Nat → List Char → Row
  | 0, cs => ⟨[], false, cs⟩
  | room + 1, cs =>
    match if room = 0 then none else item first ipv4 cs with
    | some (ip, rest) => ⟨ip.toGroups, true, rest⟩
    | none =>
      match item first group cs with
      | none => ⟨[], false, cs⟩
      | some (g, rest) =>
        let tail := row false room rest
        { tail with groups := g :: tail.groups }

def ipv6 (cs : List Char) : Option (Ipv6 × List Char) :=
  let head := row true 8 cs
  if h : head.groups.length = 8 then some (⟨head.groups, h⟩, head.rest)
  else if head.embedded then none
  else do
    let rest ← mark ':' head.rest
    let rest ← mark ':' rest
    let tail := row true (8 - (head.groups.length + 1)) rest
    let zeros := List.replicate (8 - head.groups.length - tail.groups.length) 0
    let groups := head.groups ++ zeros ++ tail.groups
    if h : groups.length = 8 then some (⟨groups, h⟩, tail.rest) else none

def whole {α : Type} (read : List Char → Option (α × List Char)) (cs : List Char) : Option α :=
  match read cs with
  | some (x, []) => some x
  | _ => none

def ipAddr (cs : List Char) : Option (IpAddr × List Char) :=
  match ipv4 cs with
  | some (ip, rest) => some (.v4 ip, rest)
  | none => (ipv6 cs).map fun (ip, rest) => (.v6 ip, rest)

/-- A port behind its colon. -/
def portMark (cs : List Char) : Option (UInt16 × List Char) := do
  let cs ← mark ':' cs
  let (n, rest) ← number 10 cs.length true cs
  if n < 65536 then some (n.toUInt16, rest) else none

def endpoint (cs : List Char) : Option (Endpoint × List Char) :=
  match ipv4 cs with
  | some (ip, rest) => (portMark rest).map fun (port, rest) => (⟨.v4 ip, port⟩, rest)
  | none => do
    let cs ← mark '[' cs
    let (ip, cs) ← ipv6 cs
    let cs ← mark ']' cs
    let (port, cs) ← portMark cs
    return (⟨.v6 ip, port⟩, cs)

end AddressReader

def IpAddr.ofString? (s : String) : Option IpAddr :=
  AddressReader.whole AddressReader.ipAddr s.toList

def Endpoint.ofString? (s : String) : Option Endpoint :=
  AddressReader.whole AddressReader.endpoint s.toList

end ExpiringStore
