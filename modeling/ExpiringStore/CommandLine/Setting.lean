import ExpiringStore.Address.Reader
import ExpiringStore.CommandLine.Config
import ExpiringStore.Text.Integer

/-!
# Settings

Each field of the configuration can be set by an option on the command line or by a variable of the
environment. A setting knows its names, and reads its value from text.
-/
namespace ExpiringStore

/-- A field of the configuration that can be set, in the order in which they are listed. -/
inductive Setting where
  | host
  | httpPort
  | grpcPort
  | disableHttp
  | disableGrpc
  | sweepIntervalMillis
  deriving DecidableEq, Repr

/-- Why a text is no value of a setting. -/
inductive ValueError where
  | notAnAddress
  | notAnInteger (error : IntegerError)
  | notAPort (number : Int)
  deriving DecidableEq, Repr

def ValueError.message : ValueError → String
  | .notAnAddress => "invalid IP address syntax"
  | .notAnInteger error => error.message
  | .notAPort number => toString number ++ " is not in 0..=65535"

namespace Setting

def all : List Setting :=
  [.host, .httpPort, .grpcPort, .disableHttp, .disableGrpc, .sweepIntervalMillis]

def longName : Setting → String
  | .host => "host"
  | .httpPort => "hport"
  | .grpcPort => "gport"
  | .disableHttp => "disable-http"
  | .disableGrpc => "disable-grpc"
  | .sweepIntervalMillis => "sweep-interval-ms"

def hiddenName? : Setting → Option String
  | .disableHttp => some "disableHTTP"
  | .disableGrpc => some "disableGRPC"
  | _ => none

/-- What stands for the value in descriptions; flags have none. -/
def placeholder? : Setting → Option String
  | .host => some "HOST"
  | .httpPort => some "HTTP_PORT"
  | .grpcPort => some "GRPC_PORT"
  | .sweepIntervalMillis => some "SWEEP_INTERVAL_MS"
  | .disableHttp | .disableGrpc => none

def isFlag (s : Setting) : Bool := s.placeholder?.isNone

def variableName : Setting → String
  | .host => "STASHR_HOST"
  | .httpPort => "STASHR_HTTP_PORT"
  | .grpcPort => "STASHR_GRPC_PORT"
  | .disableHttp => "STASHR_DISABLE_HTTP"
  | .disableGrpc => "STASHR_DISABLE_GRPC"
  | .sweepIntervalMillis => "STASHR_SWEEP_INTERVAL_MS"

def summary : Setting → String
  | .host => "Address to bind both listeners to"
  | .httpPort => "HTTP port to listen on"
  | .grpcPort => "gRPC port to listen on"
  | .disableHttp => "Disable the HTTP server"
  | .disableGrpc => "Disable the gRPC server"
  | .sweepIntervalMillis => "Milliseconds between sweeps of expired keys"

/-- The text of the value that holds where nothing is said; flags show none. -/
def standardText? : Setting → Option String
  | .host => some Config.standard.host.text
  | .httpPort => some (toString Config.standard.httpPort.toNat)
  | .grpcPort => some (toString Config.standard.grpcPort.toNat)
  | .sweepIntervalMillis => some (toString Config.standard.sweepIntervalMillis.toNat)
  | .disableHttp | .disableGrpc => none

def usage (s : Setting) : String :=
  match s.placeholder? with
  | some placeholder => "--" ++ s.longName ++ " <" ++ placeholder ++ ">"
  | none => "--" ++ s.longName

def ofName? (name : String) : Option Setting :=
  all.find? fun s => s.longName == name || s.hiddenName? == some name

def readPort (text : String) : Except ValueError UInt16 :=
  match readInt64 text.toList with
  | .error e => .error (.notAnInteger e)
  | .ok n => if 0 ≤ n ∧ n ≤ 65535 then .ok n.toNat.toUInt16 else .error (.notAPort n)

def readHost (text : String) : Except ValueError IpAddr :=
  match IpAddr.ofString? text with
  | some ip => .ok ip
  | none => .error .notAnAddress

def readMillis (text : String) : Except ValueError UInt64 :=
  match readUInt64 text.toList with
  | .error e => .error (.notAnInteger e)
  | .ok n => .ok n.toUInt64

end Setting

/-- The fields of a configuration that have been set so far. -/
structure Settings where
  host : Option IpAddr
  httpPort : Option UInt16
  grpcPort : Option UInt16
  disableHttp : Option Bool
  disableGrpc : Option Bool
  sweepIntervalMillis : Option UInt64
  deriving DecidableEq, Repr

namespace Settings

def empty : Settings := ⟨none, none, none, none, none, none⟩

def has (g : Settings) : Setting → Bool
  | .host => g.host.isSome
  | .httpPort => g.httpPort.isSome
  | .grpcPort => g.grpcPort.isSome
  | .disableHttp => g.disableHttp.isSome
  | .disableGrpc => g.disableGrpc.isSome
  | .sweepIntervalMillis => g.sweepIntervalMillis.isSome

def setFlag (g : Settings) (s : Setting) (b : Bool) : Settings :=
  match s with
  | .disableHttp => { g with disableHttp := some b }
  | .disableGrpc => { g with disableGrpc := some b }
  | _ => g

/-- Sets a setting to the value that a text is, in place of an earlier one; flags are left alone. -/
def setText (g : Settings) (s : Setting) (text : String) : Except ValueError Settings :=
  match s with
  | .host => (Setting.readHost text).map fun v => { g with host := some v }
  | .httpPort => (Setting.readPort text).map fun v => { g with httpPort := some v }
  | .grpcPort => (Setting.readPort text).map fun v => { g with grpcPort := some v }
  | .sweepIntervalMillis =>
    (Setting.readMillis text).map fun v => { g with sweepIntervalMillis := some v }
  | .disableHttp | .disableGrpc => .ok g

/-- The configuration: what has been set, and elsewhere what holds where nothing is said. -/
def toConfig (g : Settings) : Config where
  host := g.host.getD Config.standard.host
  httpPort := g.httpPort.getD Config.standard.httpPort
  grpcPort := g.grpcPort.getD Config.standard.grpcPort
  disableHttp := g.disableHttp.getD Config.standard.disableHttp
  disableGrpc := g.disableGrpc.getD Config.standard.disableGrpc
  sweepIntervalMillis := g.sweepIntervalMillis.getD Config.standard.sweepIntervalMillis

end Settings

end ExpiringStore
