import Mathlib.Data.List.Forall2
import ExpiringStore.Proofs.Http.Plain
import ExpiringStore.Rpc.Service

/-!
# One service behind two front-ends

A call made over HTTP, in whatever spelling, and the same call made remotely leave the same store,
log the same lines and are told the same thing, each in its own words.
-/
namespace ExpiringStore

namespace Http

@[simp] theorem status_json (status : Nat) (document : Json) :
    (Response.json status document).status = status := rfl

@[simp] theorem status_empty (status : Nat) : (Response.empty status).status = status := rfl

@[simp] theorem empty_ne_json (status other : Nat) (document : Json) :
    Response.empty status ≠ Response.json other document := nofun

/-- Responses with one member tell their status, its name and its value. -/
theorem json_single_inj {status other : Nat} {name name' : String} {value value' : Json}
    (wellFormed : value.WellFormed) (wellFormed' : value'.WellFormed) :
    Response.json status (.single name value) = Response.json other (.single name' value') ↔
      status = other ∧ name = name' ∧ value = value' := by
  constructor
  · intro same
    obtain ⟨statuses, -, -, bodies⟩ := Response.mk.inj same
    have documents := Json.render_injective (Json.wellFormed_single wellFormed)
      (Json.wellFormed_single wellFormed') bodies
    exact ⟨statuses, Json.single_inj.mp documents⟩
  · rintro ⟨rfl, rfl, rfl⟩
    rfl

/-- A response and a reply say the same: each is what it is exactly when the
other is its counterpart. -/
structure Corresponds (response : Response) (reply : Except Rpc.Failure Rpc.Reply) : Prop where
  found : ∀ value, response = .json 200 (.single "value" (.ofString value)) ↔
    reply = .ok (.value value true)
  missing : response.status = 404 ↔ ∃ value, reply = .ok (.value value false)
  deleted : ∀ wasLive, response = .json 200 (.single "deleted" (.bool wasLive)) ↔
    reply = .ok (.deleted wasLive)
  listed : ∀ keys, response = .json 200 (.single "keys" (.array (keys.map .ofString))) ↔
    reply = .ok (.keys keys)
  written : response.status = 204 ↔ reply = .ok .written
  refused : ∀ message, response = .json 400 (.single "error" (.ofString message)) ↔
    ∃ failure, reply = .error failure ∧ failure.code = 3 ∧ failure.message? = some message
  noOther : ∀ failure, reply = .error failure → failure.code = 3

namespace Corresponds

theorem of_found (value : String) :
    Corresponds (.json 200 (.single "value" (.ofString value))) (.ok (.value value true)) := by
  constructor <;> simp [json_single_inj]

theorem of_missing : Corresponds ApiError.notFound.response (.ok (.value "" false)) := by
  constructor <;> simp [ApiError.response, ApiError.status, json_single_inj]

theorem of_deleted (wasLive : Bool) :
    Corresponds (.json 200 (.single "deleted" (.bool wasLive))) (.ok (.deleted wasLive)) := by
  constructor <;> simp [json_single_inj]

theorem of_keys (keys : List String) :
    Corresponds (.json 200 (.single "keys" (.array (keys.map .ofString)))) (.ok (.keys keys)) := by
  constructor <;> simp [json_single_inj]

theorem of_written : Corresponds (.empty 204) (.ok .written) := by
  constructor <;> simp

theorem of_refusal (refusal : Refusal) :
    Corresponds (ApiError.ofRefusal refusal).response (.error (.invalidArgument refusal)) := by
  constructor <;> simp [ApiError.ofRefusal, ApiError.response, ApiError.status, ApiError.message,
    json_single_inj, Rpc.Failure.code, Rpc.Failure.message?]

end Corresponds

/-- One request or call leaves the same store over either front-end, logs the same lines
and is answered alike. -/
theorem handle_eq_rpc {request : Request} {call : Rpc.Call} (makes : Makes request call)
    (store : Store) (now : Instant) :
    (handle store now request).1 = (Rpc.handle store now call).1 ∧
      (handle store now request).2.2.map Event.line =
        (Rpc.handle store now call).2.2.map Event.line ∧
      Corresponds (handle store now request).2.1 (Rpc.handle store now call).2.1 := by
  cases makes with
  | list names =>
    rw [handle, ofTarget_of_namesKeys names]
    exact ⟨rfl, rfl, .of_keys _⟩
  | @get target key headers body names named =>
    obtain ⟨segment, route, decoded⟩ := ofTarget_of_namesKey names named
    simp only [handle, route, withKey, decoded, getKey, Rpc.handle]
    cases checkKey key with
    | error refusal => exact ⟨rfl, rfl, .of_refusal refusal⟩
    | ok =>
      obtain ⟨after, found⟩ := store.get key now
      cases found with
      | none => exact ⟨rfl, rfl, .of_missing⟩
      | some value => exact ⟨rfl, rfl, .of_found value⟩
  | @set target key value ttlSeconds headers body names named fits carries =>
    obtain ⟨segment, route, decoded⟩ := ofTarget_of_namesKey names named
    have read := SetBody.parse?_of_spelled carries
    simp only [handle, route, withKey, decoded, if_neg (Nat.not_lt.mpr fits), setKey, read,
      Rpc.handle]
    cases checkKey key with
    | error refusal => exact ⟨rfl, rfl, .of_refusal refusal⟩
    | ok =>
      cases checkValue value with
      | error refusal => exact ⟨rfl, rfl, .of_refusal refusal⟩
      | ok => exact ⟨rfl, rfl, .of_written⟩
  | @delete target key headers body names named =>
    obtain ⟨segment, route, decoded⟩ := ofTarget_of_namesKey names named
    simp only [handle, route, withKey, decoded, deleteKey, Rpc.handle]
    cases checkKey key with
    | error refusal => exact ⟨rfl, rfl, .of_refusal refusal⟩
    | ok => exact ⟨rfl, rfl, .of_deleted _⟩

end Http

/-- A request to either front-end: one that makes a call over HTTP, and the call. -/
structure Exchange where
  request : Http.Request
  call : Rpc.Call
  makes : Http.Makes request call

inductive Told where
  | http (response : Http.Response)
  | grpc (reply : Except Rpc.Failure Rpc.Reply)

/-- What clients of the same or of different front-ends are told is the same. -/
def Told.Agrees : Told → Told → Prop
  | .http response, .http other => response = other
  | .grpc reply, .grpc other => reply = other
  | .http response, .grpc reply | .grpc reply, .http response => Http.Corresponds response reply

namespace Exchange

/-- A call on a key that is not empty, made over HTTP without any choice of spelling. -/
def plain (call : Rpc.Call) (named : ∀ key, call.key? = some key → key ≠ "")
    (fits : (Http.requestOf call).body.length ≤ Http.maxBodyBytes) : Exchange :=
  ⟨Http.requestOf call, call, Http.makes_requestOf call named fits⟩

def send (exchange : Exchange) (store : Store) (now : Instant) :
    FrontEnd → Store × Told × List Event
  | .http =>
    let (after, response, events) := Http.handle store now exchange.request
    (after, .http response, events)
  | .grpc =>
    let (after, reply, events) := Rpc.handle store now exchange.call
    (after, .grpc reply, events)

/-- Sends requests one after the other, the one at each position over the
front-end chosen for it. -/
def sendAll (store : Store) (choice : Nat → FrontEnd) :
    List (Instant × Exchange) → Store × List Told × List Event
  | [] => (store, [], [])
  | (now, exchange) :: rest =>
    let (after, told, events) := exchange.send store now (choice 0)
    let (last, others, more) := sendAll after (fun position => choice (position + 1)) rest
    (last, told :: others, events ++ more)

/-- The front-end makes no difference to one request. -/
theorem send_agrees (exchange : Exchange) (store : Store) (now : Instant) (one other : FrontEnd) :
    (exchange.send store now one).1 = (exchange.send store now other).1 ∧
      (exchange.send store now one).2.2.map Event.line =
        (exchange.send store now other).2.2.map Event.line ∧
      (exchange.send store now one).2.1.Agrees (exchange.send store now other).2.1 := by
  obtain ⟨stores, lines, answers⟩ := Http.handle_eq_rpc exchange.makes store now
  cases one with
  | http =>
    cases other with
    | http => exact ⟨rfl, rfl, rfl⟩
    | grpc => exact ⟨stores, lines, answers⟩
  | grpc =>
    cases other with
    | http => exact ⟨stores.symm, lines.symm, answers⟩
    | grpc => exact ⟨rfl, rfl, rfl⟩

end Exchange

/-- From any store, however requests at any clock readings are spread over the front-ends, they
leave the same store, log the same lines and are answered alike one by one. Events are compared
by level and text (`Event.line`): their target names the front-end that logged them, and is all
that tells them apart. -/
theorem front_ends_agree (store : Store) (requests : List (Instant × Exchange))
    (choice other : Nat → FrontEnd) :
    let sent := Exchange.sendAll store choice requests
    let sentOtherwise := Exchange.sendAll store other requests
    sent.1 = sentOtherwise.1 ∧ sent.2.2.map Event.line = sentOtherwise.2.2.map Event.line ∧
      List.Forall₂ Told.Agrees sent.2.1 sentOtherwise.2.1 := by
  induction requests generalizing store choice other with
  | nil => exact ⟨rfl, rfl, .nil⟩
  | cons first rest ih =>
    obtain ⟨now, exchange⟩ := first
    obtain ⟨stores, lines, answers⟩ := exchange.send_agrees store now (choice 0) (other 0)
    have others := ih (exchange.send store now (choice 0)).1 (fun position => choice (position + 1))
      (fun position => other (position + 1))
    simp only [Exchange.sendAll, List.map_append, lines] at others ⊢
    rw [← stores]
    exact ⟨others.1, congrArg _ others.2.1, .cons answers others.2.2⟩

/-- A key with a slash, which a path can hold as an escape only. -/
theorem namesKey_slash : Http.NamesKey "/keys/a%2fb" "a/b" := by
  have spelled : Percent.Spelled [0x61, 0x2f, 0x62] [0x61, 0x25, 0x32, 0x66, 0x62] := by
    refine .plain (.inl (by decide)) (.escape (h := 2) (l := 15) ?_ ?_ (by decide) ?_)
    · exact .inl (by decide)
    · exact .inr (by decide)
    · exact .plain (.inl (by decide)) .nil
  exact ⟨[0x61, 0x25, 0x32, 0x66, 0x62], [], spelled, .none, by decide⟩

def Exchange.getSlash : Exchange where
  request := ⟨.get, "/keys/a%2fb", [], []⟩
  call := .get "a/b"
  makes := .get namesKey_slash (by decide)

theorem front_ends_agree_slash :
    let put := Exchange.plain (.set "a/b" "v" 60) (by rintro _ ⟨⟩; decide) (by decide)
    let requests := [(⟨0, 0⟩, put), (⟨59, 0⟩, Exchange.getSlash), (⟨60, 0⟩, Exchange.getSlash)]
    let empty := (Store.create .standard ⟨0, 0⟩).1
    let sent := Exchange.sendAll empty (fun _ => .http) requests
    let sentOtherwise := Exchange.sendAll empty (fun i => if i = 1 then .http else .grpc) requests
    sent.1 = sentOtherwise.1 ∧ sent.2.2.map Event.line =
      ["DEBUG SET a/b (ttl: 60s)", "DEBUG GET a/b", "DEBUG GET a/b"] ∧
      List.Forall₂ Told.Agrees sent.2.1 sentOtherwise.2.1 := by
  intro put requests empty sent sentOtherwise
  obtain ⟨stores, -, answers⟩ := front_ends_agree empty requests (fun _ => .http)
    (fun i => if i = 1 then .http else .grpc)
  exact ⟨stores, by decide, answers⟩

end ExpiringStore
