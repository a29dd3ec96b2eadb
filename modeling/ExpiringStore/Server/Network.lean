import ExpiringStore.Server.Error

/-!
# The network around a server

What the surroundings answer when a server wants to listen or a client to connect. Any answers make
a network; `isolated` is the one of a machine that reaches nothing, not even itself.
-/
namespace ExpiringStore

/-- The answers of a network. Listening may depend on the endpoints that are listened on already; on
success it answers with the actual endpoint, since port zero asks for any free one. -/
structure Network where
  listen : List Endpoint → Endpoint → Except OsError Endpoint
  carry : Except OsError Unit

namespace Network

/-- Whether a machine without further interfaces has an address. -/
def ownAddress (ip : IpAddr) : Bool := ip.isLoopback || ip.isUnspecified

/-- Whether listening on one endpoint keeps others from listening on the other. -/
def collides (a b : Endpoint) : Bool :=
  a.port == b.port &&
    (a.ip == b.ip || (a.ip.sameFamily b.ip && (a.ip.isUnspecified || b.ip.isUnspecified)))

def freePort (taken : List Endpoint) : UInt16 :=
  let candidates := (List.range (taken.length + 1)).map fun i => (49152 + i).toUInt16
  (candidates.find? fun port => taken.all fun e => e.port != port).getD 49152

/-- What listening comes to while some endpoints are taken. -/
def listenBeside (taken : List Endpoint) (wanted : Endpoint) : Except OsError Endpoint :=
  if !ownAddress wanted.ip then .error .addressNotAvailable
  else if wanted.port = 0 then .ok { wanted with port := freePort taken }
  else if taken.any (collides wanted) then .error .addressInUse
  else .ok wanted

/-- A machine on which `taken` is listened on by others, and which carries no connection. -/
def isolated (taken : List Endpoint) : Network :=
  ⟨fun bound wanted => listenBeside (bound ++ taken) wanted, .error .networkUnreachable⟩

end Network

end ExpiringStore
