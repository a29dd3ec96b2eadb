import ExpiringStore.CommandLine.Config
import ExpiringStore.Server.Network
import ExpiringStore.Server.Step

/-!
# Listeners

The enabled front-ends are bound one after the other, HTTP first, and the first that cannot be bound
ends the attempt. They are started in the other order, and only once all are bound.
-/
namespace ExpiringStore

/-- The endpoints that the enabled front-ends listen on. -/
structure Listeners where
  http : Option Endpoint
  grpc : Option Endpoint
  deriving DecidableEq, Repr

/-- Why a client has no connection to a front-end. -/
inductive ConnectError where
  | disabled
  | unreachable (cause : OsError)
  deriving DecidableEq, Repr

namespace Listeners

/-- Binds one front-end if it is enabled, while `bound` is listened on already. -/
def bindOne (config : Config) (network : Network) (bound : List Endpoint) (frontEnd : FrontEnd) :
    List Step × Except ServerError (Option Endpoint) :=
  match config.endpoint? frontEnd with
  | none => ([], .ok none)
  | some endpoint =>
    match network.listen bound endpoint with
    | .error e => ([.bind frontEnd endpoint], .error (.bind frontEnd endpoint e.message))
    | .ok actual => ([.bind frontEnd endpoint], .ok (some actual))

/-- Binds the enabled front-ends, HTTP first. The first that cannot be bound ends the attempt. -/
def bind (config : Config) (network : Network) : List Step × Except ServerError Listeners :=
  match config.validate with
  | .error e => ([], .error e)
  | .ok _ =>
    match bindOne config network [] .http with
    | (steps, .error e) => (steps, .error e)
    | (steps, .ok http) =>
      match bindOne config network http.toList .grpc with
      | (more, .error e) => (steps ++ more, .error e)
      | (more, .ok grpc) => (steps ++ more, .ok ⟨http, grpc⟩)

def endpoint? (l : Listeners) : FrontEnd → Option Endpoint
  | .http => l.http
  | .grpc => l.grpc

/-- Opens a connection to a front-end, if it is served and the network lets
the connection through. -/
def connect (l : Listeners) (network : Network) (frontEnd : FrontEnd) :
    Except ConnectError Endpoint :=
  match l.endpoint? frontEnd with
  | none => .error .disabled
  | some endpoint =>
    match network.carry with
    | .ok _ => .ok endpoint
    | .error e => .error (.unreachable e)

/-- The front-ends that are served, in the order in which they are started. -/
def started (l : Listeners) : List FrontEnd :=
  [FrontEnd.grpc, .http].filter fun f => (l.endpoint? f).isSome

def startOne (l : Listeners) (frontEnd : FrontEnd) : List Step :=
  match l.endpoint? frontEnd with
  | none => []
  | some endpoint => [.log (.listening frontEnd endpoint), .start frontEnd]

/-- Starts the front-ends. -/
def start (l : Listeners) : List Step := l.startOne .grpc ++ l.startOne .http

end Listeners

end ExpiringStore
