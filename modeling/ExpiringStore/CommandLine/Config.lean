import ExpiringStore.Server.Error
import ExpiringStore.Store.Sweeper

/-!
# Configuration

What a server is told to do: where to listen, over which protocols, and how often to sweep.
-/
namespace ExpiringStore

structure Config where
  host : IpAddr
  httpPort : UInt16
  grpcPort : UInt16
  disableHttp : Bool
  disableGrpc : Bool
  sweepIntervalMillis : UInt64
  deriving DecidableEq, Repr

namespace Config

def standard : Config := ⟨.v4 Ipv4.unspecified, 8080, 9090, false, false, 1000⟩

/-- A configuration has to leave something to serve. -/
def validate (c : Config) : Except ServerError Unit :=
  if c.disableHttp && c.disableGrpc then .error .nothingToServe else .ok ()

def endpoint? (c : Config) : FrontEnd → Option Endpoint
  | .http => if c.disableHttp then none else some ⟨c.host, c.httpPort⟩
  | .grpc => if c.disableGrpc then none else some ⟨c.host, c.grpcPort⟩

def sweepInterval (c : Config) : SweepInterval :=
  SweepInterval.clamp (Duration.ofMillis c.sweepIntervalMillis)

end Config

end ExpiringStore
