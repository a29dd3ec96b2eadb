import ExpiringStore.Server.Error
import ExpiringStore.Time

/-!
# Log events

Everything the program reports about itself, each with a level, a target that names the part which
reports it, and a text.
-/
namespace ExpiringStore

/-- How important an event is, the least important first. -/
inductive Level where
  | trace
  | debug
  | info
  | warn
  | error
  deriving DecidableEq, Repr

namespace Level

def name : Level → String
  | .trace => "TRACE"
  | .debug => "DEBUG"
  | .info => "INFO"
  | .warn => "WARN"
  | .error => "ERROR"

def rank : Level → Nat
  | .trace => 1
  | .debug => 2
  | .info => 3
  | .warn => 4
  | .error => 5

end Level

/-- What happened. A request's key is held as a log line shows it, so an
event knows no more of it. -/
inductive Event where
  | sweeperStarted (interval : Duration)
  | swept (removed : Nat)
  | sweeperStopped
  | listRequest (frontEnd : FrontEnd)
  | getRequest (frontEnd : FrontEnd) (shownKey : String)
  | setRequest (frontEnd : FrontEnd) (shownKey : String) (ttlSeconds : Int64)
  | deleteRequest (frontEnd : FrontEnd) (shownKey : String)
  | sweepInterval (millis : UInt64)
  | listening (frontEnd : FrontEnd) (endpoint : Endpoint)
  | shuttingDown
  | serverFailed (error : ServerError)
  | shutdownComplete
  deriving DecidableEq, Repr

namespace Event

/-- Requests and the sweeper are details; a server's start and end are not. -/
def level : Event → Level
  | .sweeperStarted _ | .swept _ | .sweeperStopped => .debug
  | .listRequest _ | .getRequest _ _ | .setRequest _ _ _ | .deleteRequest _ _ => .debug
  | .sweepInterval _ | .listening _ _ | .shuttingDown | .shutdownComplete => .info
  | .serverFailed _ => .error

/-- The part of the program that reports requests of a front-end. -/
def requestTarget : FrontEnd → String
  | .http => "stashr_server::http"
  | .grpc => "stashr_server::grpc"

/-- The part of the program that reports the event. -/
def target : Event → String
  | .sweeperStarted _ | .swept _ | .sweeperStopped => "stashr_core::sweeper"
  | .listRequest f | .getRequest f _ | .setRequest f _ _ | .deleteRequest f _ => requestTarget f
  | .sweepInterval _ | .listening _ _ | .shuttingDown | .serverFailed _ => "stashr_server::server"
  | .shutdownComplete => "stashr"

/-- A request's seconds to live as a log line shows them. -/
def ttlText (seconds : Int64) : String :=
  if 0 < seconds then toString seconds.toInt ++ "s" else "never"

def text : Event → String
  | .sweeperStarted interval => "sweeper started (interval: " ++ interval.text ++ ")"
  | .swept removed => "swept expired entries removed=" ++ toString removed
  | .sweeperStopped => "sweeper stopped"
  | .listRequest _ => "LIST"
  | .getRequest _ key => "GET " ++ key
  | .setRequest _ key ttl => "SET " ++ key ++ " (ttl: " ++ ttlText ttl ++ ")"
  | .deleteRequest _ key => "DELETE " ++ key
  | .sweepInterval millis => "Sweep interval: " ++ toString millis.toNat ++ "ms"
  | .listening frontEnd endpoint =>
    frontEnd.name ++ " server listening on " ++ endpoint.text
  | .shuttingDown => "shutting down..."
  | .serverFailed error => error.message
  | .shutdownComplete => "shutdown complete"

/-- The event as a line of level and text. -/
def line (e : Event) : String := e.level.name ++ " " ++ e.text

/-- The event as a line that also names its target. -/
def lineWithTarget (e : Event) : String := e.level.name ++ " " ++ e.target ++ ": " ++ e.text

end Event

end ExpiringStore
