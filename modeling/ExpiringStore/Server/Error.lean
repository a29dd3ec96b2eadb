import ExpiringStore.Address.Basic

/-!
# Front-ends and what ends a server

The two protocols that serve a store, and the errors that keep a server from starting or end it.
-/
namespace ExpiringStore

/-- A protocol that the store is served over. -/
inductive FrontEnd where
  | http
  | grpc
  deriving DecidableEq, Repr

def FrontEnd.name : FrontEnd → String
  | .http => "HTTP"
  | .grpc => "gRPC"

/-- Why the system refuses a socket operation. -/
inductive OsError where
  | addressInUse
  | addressNotAvailable
  | networkUnreachable
  | other (code : Nat) (kind description : String)
  deriving DecidableEq, Repr

namespace OsError

def code : OsError → Nat
  | .addressInUse => 98
  | .addressNotAvailable => 99
  | .networkUnreachable => 101
  | .other code _ _ => code

def kind : OsError → String
  | .addressInUse => "AddrInUse"
  | .addressNotAvailable => "AddrNotAvailable"
  | .networkUnreachable => "NetworkUnreachable"
  | .other _ kind _ => kind

def description : OsError → String
  | .addressInUse => "Address already in use"
  | .addressNotAvailable => "Cannot assign requested address"
  | .networkUnreachable => "Network is unreachable"
  | .other _ _ description => description

def message (e : OsError) : String :=
  e.description ++ " (os error " ++ toString e.code ++ ")"

def detail (e : OsError) : String :=
  "Os \x7b code: " ++ toString e.code ++ ", kind: " ++ e.kind ++ ", message: \"" ++ e.description ++
    "\" \x7d"

end OsError

/-- Why a server did not start or came to an end. The texts of causes come from below. -/
inductive ServerError where
  | nothingToServe
  | bind (frontEnd : FrontEnd) (endpoint : Endpoint) (cause : String)
  | http (cause : String)
  | grpc (cause : String)
  | reflection (cause : String)
  | task (cause : String)
  deriving DecidableEq, Repr

def ServerError.message : ServerError → String
  | .nothingToServe => "all servers are disabled; enable HTTP, gRPC or both"
  | .bind frontEnd endpoint cause =>
    "failed to listen on " ++ endpoint.text ++ " (" ++ frontEnd.name ++ "): " ++ cause
  | .http cause => "HTTP server error: " ++ cause
  | .grpc cause => "gRPC server error: " ++ cause
  | .reflection cause => "failed to build gRPC reflection service: " ++ cause
  | .task cause => "server task failed: " ++ cause

end ExpiringStore
