import ExpiringStore.Http.Route
import ExpiringStore.Http.SetBody
import ExpiringStore.Limits
import ExpiringStore.Store.Basic
import ExpiringStore.Text.Order

/-!
# The HTTP front-end

`handle` answers one request against a store at one clock reading and says what it logs. A request
passes its checks in order: route, method, the key's escapes, the size of a body, the key's length,
the body's JSON, the value's length. Only then does it touch the store.
-/
namespace ExpiringStore.Http

/-- The largest body of a write, in bytes. -/
def maxBodyBytes : Nat := 2097152

/-- What a handler answers instead of a result. -/
inductive ApiError where
  | notFound
  | badRequest (message : String)
  deriving DecidableEq, Repr

namespace ApiError

def ofRefusal (r : Refusal) : ApiError := .badRequest r.message

def message : ApiError → String
  | .notFound => "not found"
  | .badRequest message => message

def status : ApiError → Nat
  | .notFound => 404
  | .badRequest _ => 400

def response (e : ApiError) : Response :=
  .json e.status (.single "error" (.ofString e.message))

end ApiError

/-- A store after a request, the response, and what was logged on the way. -/
abbrev Outcome := Store × Response × List Event

/-- The outcome of a request that is refused before it touches the store. -/
def refuse (store : Store) (response : Response) : Outcome := (store, response, [])

def listKeys (store : Store) (now : Instant) : Outcome :=
  let keys := sortKeys (store.list now)
  (store, .json 200 (.single "keys" (.array (keys.map Json.ofString))), [.listRequest .http])

def getKey (store : Store) (now : Instant) (key : String) : Outcome :=
  match checkKey key with
  | .error refusal => refuse store (ApiError.ofRefusal refusal).response
  | .ok _ =>
    match store.get key now with
    | (store, some value) =>
      (store, .json 200 (.single "value" (.ofString value)), [.getRequest .http (logKey key)])
    | (store, none) => (store, ApiError.notFound.response, [.getRequest .http (logKey key)])

def setKey (store : Store) (now : Instant) (key : String) (body : Bytes) : Outcome :=
  match checkKey key with
  | .error refusal => refuse store (ApiError.ofRefusal refusal).response
  | .ok _ =>
    match SetBody.parse? body with
    | none => refuse store (ApiError.badRequest "invalid JSON").response
    | some ⟨value, ttlSeconds⟩ =>
      match checkValue value with
      | .error refusal => refuse store (ApiError.ofRefusal refusal).response
      | .ok _ =>
        (store.set key value (ttlOfSeconds ttlSeconds) now, .empty 204,
          [.setRequest .http (logKey key) ttlSeconds])

def deleteKey (store : Store) (now : Instant) (key : String) : Outcome :=
  match checkKey key with
  | .error refusal => refuse store (ApiError.ofRefusal refusal).response
  | .ok _ =>
    let (store, deleted) := store.delete key now
    (store, .json 200 (.single "deleted" (.bool deleted)), [.deleteRequest .http (logKey key)])

def withKey (store : Store) (segment : Bytes) (handler : String → Outcome) : Outcome :=
  match keyOfSegment? segment with
  | some key => handler key
  | none => refuse store (.plain 400 "Invalid URL: Invalid UTF-8 in \x60key\x60")

def headOnly (outcome : Outcome) : Outcome :=
  (outcome.1, outcome.2.1.withoutBody, outcome.2.2)

def handle (store : Store) (now : Instant) (request : Request) : Outcome :=
  match Route.ofTarget request.target with
  | .nowhere => refuse store (.empty 404)
  | .keys =>
    match request.method with
    | .get => listKeys store now
    | .head => headOnly (listKeys store now)
    | _ => refuse store (.methodNotAllowed "GET,HEAD")
  | .key segment =>
    match request.method with
    | .get => withKey store segment (getKey store now)
    | .head => headOnly (withKey store segment (getKey store now))
    | .put =>
      withKey store segment fun key =>
        if request.body.length > maxBodyBytes then
          refuse store (.plain 413 "Failed to buffer the request body: length limit exceeded")
        else setKey store now key request.body
    | .delete => withKey store segment (deleteKey store now)
    | .other _ => refuse store (.methodNotAllowed "GET,HEAD,PUT,DELETE")

end ExpiringStore.Http
