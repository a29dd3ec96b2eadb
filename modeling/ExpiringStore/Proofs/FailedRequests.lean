import ExpiringStore.Http.Service
import ExpiringStore.Proofs.Operations
import ExpiringStore.Rpc.Service

/-!
# Failed requests

A request that fails leaves the store as it was and logs nothing. Only a read that finds no
value gets as far as the store: it says so in the log, and an expired entry that it came
across is gone afterwards.
-/
namespace ExpiringStore

namespace Http

/-- Whether a request got what it asked for. -/
def Response.Succeeded (response : Response) : Prop := 200 ≤ response.status ∧ response.status < 300

instance (response : Response) : Decidable response.Succeeded := inferInstanceAs (Decidable (_ ∧ _))

/-- Whether a request asks for the value under an admissible key, or for the
headers of that answer. -/
structure Request.Reads (request : Request) (key : String) : Prop where
  method : request.method = .get ∨ request.method = .head
  named : ∃ segment, Route.ofTarget request.target = .key segment ∧ keyOfSegment? segment = some key
  admissible : checkKey key = .ok ()

def missingResponse (request : Request) : Response :=
  if request.method = .head then ApiError.notFound.response.withoutBody
    else ApiError.notFound.response

/-- What a request for a value that is not there comes to: one line in the log, and no loss but that
of an expired entry under its key. -/
structure Misses (store : Store) (now : Instant) (request : Request) (key : String)
    (outcome : Outcome) :
    Prop where
  response : outcome.2.1 = missingResponse request
  events : outcome.2.2 = [.getRequest .http (logKey key)]
  sweeper : outcome.1.sweeper = store.sweeper
  table : ∀ other, outcome.1.table.find? other =
    if other = key then (store.table.find? key).filter (fun entry => !entry.expiredAt now)
    else store.table.find? other

/-- An outcome that is a success, or else leaves the store as it was and nothing in the log. -/
def Clean (store : Store) (outcome : Outcome) : Prop :=
  outcome.2.1.Succeeded ∨ outcome.1 = store ∧ outcome.2.2 = []

theorem succeeded_json (document : Json) : (Response.json 200 document).Succeeded :=
  (by decide : 200 ≤ 200 ∧ 200 < 300)

section

variable (store : Store) (now : Instant)

theorem clean_refuse (response : Response) : Clean store (refuse store response) := .inr ⟨rfl, rfl⟩

theorem clean_listKeys : Clean store (listKeys store now) := .inl (succeeded_json _)

theorem clean_setKey (key : String) (body : Bytes) : Clean store (setKey store now key body) := by
  unfold setKey
  split
  · exact clean_refuse store _
  · split
    · exact clean_refuse store _
    · split
      · exact clean_refuse store _
      · exact .inl (by decide : (Response.empty 204).Succeeded)

theorem clean_deleteKey (key : String) : Clean store (deleteKey store now key) := by
  unfold deleteKey
  split
  · exact clean_refuse store _
  · exact .inl (succeeded_json _)

/-- A segment that names no key is refused, so a handler matters for the key that is named. -/
theorem clean_withKey {segment : Bytes} {handler : String → Outcome}
    (clean : ∀ key, keyOfSegment? segment = some key → Clean store (handler key)) :
    Clean store (withKey store segment handler) := by
  unfold withKey
  split
  · exact clean _ ‹_›
  · exact clean_refuse store _

theorem clean_headOnly {store : Store} {outcome : Outcome} (clean : Clean store outcome) :
    Clean store (headOnly outcome) := clean

/-- An inadmissible key is refused before it is looked up. -/
theorem clean_getKey {key : String} (inadmissible : checkKey key ≠ .ok ()) :
    Clean store (getKey store now key) := by
  unfold getKey
  split
  · exact clean_refuse store _
  · exact absurd ‹_› inadmissible

/-- A request that reads no admissible key fails without a trace. -/
theorem clean_handle {request : Request} (noRead : ∀ key, ¬request.Reads key) :
    Clean store (handle store now request) := by
  have refused (segment : Bytes) (route : Route.ofTarget request.target = .key segment)
      (method : request.method = .get ∨ request.method = .head) :
      Clean store (withKey store segment (getKey store now)) :=
    clean_withKey store fun key decoded =>
      clean_getKey store now fun admissible =>
        noRead key ⟨method, ⟨segment, route, decoded⟩, admissible⟩
  unfold handle
  split
  · exact clean_refuse store _
  · split
    · exact clean_listKeys store now
    · exact clean_headOnly (clean_listKeys store now)
    · exact clean_refuse store _
  · rename_i segment route
    split
    · exact refused segment route (.inl ‹_›)
    · exact clean_headOnly (refused segment route (.inr ‹_›))
    · refine clean_withKey store fun key _ => ?_
      split
      · exact clean_refuse store _
      · exact clean_setKey store now key _
    · exact clean_withKey store fun key _ => clean_deleteKey store now key
    · exact clean_refuse store _

/-- A read of an admissible key that finds nothing evicts what was under the key. -/
theorem misses_getKey {key : String} (admissible : checkKey key = .ok ())
    (failed : ¬(getKey store now key).2.1.Succeeded) :
    getKey store now key = ({ store with table := store.table.evictExpired key now },
      ApiError.notFound.response, [.getRequest .http (logKey key)]) := by
  rw [getKey, admissible, Store.get_eq] at failed ⊢
  cases found : (store.table.live? key now).map Entry.value with
  | none => rfl
  | some value => exact absurd (succeeded_json _) (by simpa only [found] using failed)

/-- A request for a value under an admissible key that fails has not found one. -/
theorem misses_handle {request : Request} {key : String} (reads : request.Reads key)
    (failed : ¬(handle store now request).2.1.Succeeded) :
    Misses store now request key (handle store now request) := by
  obtain ⟨method, ⟨segment, route, decoded⟩, admissible⟩ := reads
  have evicted := Table.find?_evictExpired store.table key
  obtain ⟨_, target, headers, body⟩ := request
  simp only at method route
  rcases method with rfl | rfl
  · simp only [handle, route, withKey, decoded] at failed ⊢
    rw [misses_getKey store now admissible failed]
    exact ⟨rfl, rfl, rfl, fun other => evicted other now⟩
  · simp only [handle, route, withKey, decoded] at failed ⊢
    rw [misses_getKey store now admissible failed]
    exact ⟨rfl, rfl, rfl, fun other => evicted other now⟩

end

end Http

namespace Rpc

/-- An outcome that is a reply, or else that of a call which was refused. -/
def Clean (store : Store) (outcome : Outcome) : Prop :=
  (∃ reply, outcome.2.1 = .ok reply) ∨ ∃ failure, outcome = refuse store failure

section

variable (store : Store) (now : Instant)

theorem clean_handle (call : Call) : Clean store (handle store now call) := by
  cases call with
  | get key =>
    rw [handle]
    split
    · exact .inr ⟨_, rfl⟩
    · exact .inl ⟨_, rfl⟩
  | set key value ttlSeconds =>
    rw [handle]
    split
    · exact .inr ⟨_, rfl⟩
    · split
      · exact .inr ⟨_, rfl⟩
      · exact .inl ⟨_, rfl⟩
  | delete key =>
    rw [handle]
    split
    · exact .inr ⟨_, rfl⟩
    · exact .inl ⟨_, rfl⟩
  | list => exact .inl ⟨_, rfl⟩

/-- Bytes that make no call are refused before there is anything to handle. -/
theorem clean_handleRaw (target : String) (body : Bytes) :
    Clean store (handleRaw store now target body) := by
  unfold handleRaw
  split
  · exact .inr ⟨_, rfl⟩
  · split
    · exact .inr ⟨_, rfl⟩
    · exact clean_handle store now _

end

theorem Clean.eq_refuse {store : Store} {outcome : Outcome} {failure : Failure}
    (clean : Clean store outcome) (failed : outcome.2.1 = .error failure) :
    outcome = (store, .error failure, []) := by
  rcases clean with ⟨reply, replied⟩ | ⟨other, rfl⟩
  · exact absurd (failed.symm.trans replied) nofun
  · rw [refuse, Except.error.inj failed]

end Rpc

/-- Whatever it consists of, a request over HTTP without success, a call without a reply and
bytes that make no call leave the store as it was, expired entries included, and log
nothing. A request for a value that is not there says so in the log and loses nothing but an
expired entry under its key. -/
theorem failed_request_changes_nothing (store : Store) (now : Instant) :
    (∀ request : Http.Request, ¬(Http.handle store now request).2.1.Succeeded →
      (∀ key, request.Reads key →
        Http.Misses store now request key (Http.handle store now request)) ∧
      ((∀ key, ¬request.Reads key) →
        (Http.handle store now request).1 = store ∧ (Http.handle store now request).2.2 = [])) ∧
    (∀ call failure, (Rpc.handle store now call).2.1 = .error failure →
      Rpc.handle store now call = (store, .error failure, [])) ∧
    (∀ target body failure, (Rpc.handleRaw store now target body).2.1 = .error failure →
      Rpc.handleRaw store now target body = (store, .error failure, [])) := by
  refine ⟨fun request failed => ⟨fun key reads => ?_, fun noRead => ?_⟩, ?_, ?_⟩
  · exact Http.misses_handle store now reads failed
  · exact (Http.clean_handle store now noRead).resolve_left failed
  · exact fun call failure failed => (Rpc.clean_handle store now call).eq_refuse failed
  · exact fun target body failure failed =>
      (Rpc.clean_handleRaw store now target body).eq_refuse failed

theorem failed_request_changes_nothing_expired :
    let store := (Store.create .standard ⟨0, 0⟩).1.set "k" "v" (some (Duration.ofSeconds 2)) ⟨0, 0⟩
    let read : Http.Request := ⟨.head, "/keys/k", [], []⟩
    let write : Http.Request := ⟨.put, "/keys/k", [], Bytes.ofString "not JSON"⟩
    Http.Misses store ⟨2, 0⟩ read "k" (Http.handle store ⟨2, 0⟩ read) ∧
      (Http.handle store ⟨2, 0⟩ write).1 = store ∧
      (Rpc.handle store ⟨2, 0⟩ (.delete "")).1 = store ∧
      (Rpc.handleRaw store ⟨2, 0⟩ "/kvstore.KVStore/Delete" [1]).1 = store := by
  intro store read write
  obtain ⟨requests, calls, raw⟩ := failed_request_changes_nothing store ⟨2, 0⟩
  have reads : read.Reads "k" := ⟨.inr rfl, ⟨[0x6b], by decide, by decide⟩, rfl⟩
  have noRead (key : String) : ¬write.Reads key := fun reads => absurd reads.method (by decide)
  refine ⟨?_, ?_, ?_, ?_⟩
  · exact (requests read (by decide)).1 "k" reads
  · exact ((requests write (by decide)).2 noRead).1
  · exact congrArg Prod.fst (calls (.delete "") (.invalidArgument .emptyKey) rfl)
  · exact congrArg Prod.fst (raw "/kvstore.KVStore/Delete" [1] .internal rfl)

end ExpiringStore
