import ExpiringStore.Http.Route
import ExpiringStore.Rpc.Message
import ExpiringStore.Store.Basic
import ExpiringStore.Text.Order
import ExpiringStore.Wire.Frame

/-!
# The gRPC front-end

`handle` answers one call against a store at one clock reading. `handleRaw` answers the
bytes of a request: the path chooses the method, all frames have to be sound, and the first
one's message is the call.
-/
namespace ExpiringStore.Rpc

/-- Why a call has no reply. -/
inductive Failure where
  | invalidArgument (refusal : Refusal)
  | outOfRange
  | unimplemented
  | internal
  deriving DecidableEq, Repr

namespace Failure

def code : Failure → Nat
  | .invalidArgument _ => 3
  | .outOfRange => 11
  | .unimplemented => 12
  | .internal => 13

/-- The service's own words; other failures are described by the transport. -/
def message? : Failure → Option String
  | .invalidArgument refusal => some refusal.message
  | _ => none

/-- A message that is too large is told apart from bytes that are no frames. -/
def ofFrameError : FrameError → Failure
  | .malformed => .internal
  | .tooLarge => .outOfRange

end Failure

/-- A store after a call, the reply, and what was logged on the way. -/
abbrev Outcome := Store × Except Failure Reply × List Event

/-- The outcome of a call that is refused before it touches the store. -/
def refuse (store : Store) (failure : Failure) : Outcome := (store, .error failure, [])

def handle (store : Store) (now : Instant) (call : Call) : Outcome :=
  match call with
  | .get key =>
    match checkKey key with
    | .error refusal => refuse store (.invalidArgument refusal)
    | .ok _ =>
      let (store, found) := store.get key now
      let reply :=
        match found with
        | some value => Reply.value value true
        | none => Reply.value "" false
      (store, .ok reply, [.getRequest .grpc (logKey key)])
  | .set key value ttlSeconds =>
    match checkKey key with
    | .error refusal => refuse store (.invalidArgument refusal)
    | .ok _ =>
      match checkValue value with
      | .error refusal => refuse store (.invalidArgument refusal)
      | .ok _ =>
        (store.set key value (ttlOfSeconds ttlSeconds) now, .ok .written,
          [.setRequest .grpc (logKey key) ttlSeconds])
  | .delete key =>
    match checkKey key with
    | .error refusal => refuse store (.invalidArgument refusal)
    | .ok _ =>
      let (store, deleted) := store.delete key now
      (store, .ok (.deleted deleted), [.deleteRequest .grpc (logKey key)])
  | .list => (store, .ok (.keys (sortKeys (store.list now))), [.listRequest .grpc])

/-- The call that the bytes of a request make. Everything is read before the call is made. -/
def readCall (method : Method) (body : Bytes) : Except Failure Call :=
  match Frame.read body with
  | .error e => .error (.ofFrameError e)
  | .ok (message, rest) =>
    match Call.decode? method message with
    | none => .error .internal
    | some call =>
      match Frame.faultIn (fun later => (Call.decode? method later).isSome) rest with
      | some e => .error (.ofFrameError e)
      | none => .ok call

def handleRaw (store : Store) (now : Instant) (target : String) (body : Bytes) : Outcome :=
  match Method.ofPath? (Http.pathOf (Bytes.ofString target)) with
  | none => refuse store .unimplemented
  | some method =>
    match readCall method body with
    | .error failure => refuse store failure
    | .ok call => handle store now call

/-- The bytes of a response: a reply in its frame, or nothing. -/
def responseBytes : Except Failure Reply → Bytes
  | .ok reply => Frame.wrap reply.encode
  | .error _ => []

end ExpiringStore.Rpc
