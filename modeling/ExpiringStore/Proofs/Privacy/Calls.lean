import ExpiringStore.Http.Service
import ExpiringStore.Proofs.Http.Plain
import ExpiringStore.Proofs.Privacy.Renaming
import ExpiringStore.Rpc.Service

/-!
# What clients ask for

A request over HTTP and the bytes of a remote one come to a call or to none, and what becomes of a
store and what is logged is a matter of that call alone. Calls that differ by a renaming of keys
and by values of which both or neither are within the limit do the same to stores that differ
likewise, and log the same.
-/
namespace ExpiringStore

def Event.via (frontEnd : FrontEnd) : Event → Event
  | .listRequest _ => .listRequest frontEnd
  | .getRequest _ key => .getRequest frontEnd key
  | .setRequest _ key ttl => .setRequest frontEnd key ttl
  | .deleteRequest _ key => .deleteRequest frontEnd key
  | event => event

namespace Rpc

/-- Whether a call's key and value are within the limits. -/
def Call.Admissible : Call → Prop
  | .get key | .delete key => checkKey key = .ok ()
  | .set key value _ => checkKey key = .ok () ∧ checkValue value = .ok ()
  | .list => True

/-- The call that the bytes of a request to a target make, if they make one. -/
def callOf? (target : String) (body : Bytes) : Option Call :=
  (Method.ofPath? (Http.pathOf (Bytes.ofString target))).bind fun method =>
    (readCall method body).toOption

/-- What becomes of a store and what is logged when a call is made, or none. -/
def effect (store : Store) (now : Instant) : Option Call → Store × List Event
  | none => (store, [])
  | some call => ((handle store now call).1, (handle store now call).2.2)

theorem effect_of_inadmissible (store : Store) (now : Instant) {call? : Option Call}
    (inadmissible : ∀ call ∈ call?, ¬call.Admissible) : effect store now call? = (store, []) := by
  cases call? with
  | none => rfl
  | some call =>
    have refused := inadmissible call rfl
    cases call with
    | get key =>
      simp only [effect, handle]
      split
      · rfl
      · exact absurd ‹_› refused
    | set key value ttlSeconds =>
      simp only [effect, handle]
      split
      · rfl
      · split
        · rfl
        · exact absurd ⟨‹_›, ‹_›⟩ refused
    | delete key =>
      simp only [effect, handle]
      split
      · rfl
      · exact absurd ‹_› refused
    | list => exact absurd trivial refused

theorem handleRaw_eq_effect (store : Store) (now : Instant) (target : String) (body : Bytes) :
    (handleRaw store now target body).1 = (effect store now (callOf? target body)).1 ∧
      (handleRaw store now target body).2.2 = (effect store now (callOf? target body)).2 := by
  unfold handleRaw callOf?
  cases Method.ofPath? (Http.pathOf (Bytes.ofString target)) with
  | none => exact ⟨rfl, rfl⟩
  | some method =>
    simp only [Option.bind_some]
    cases readCall method body with
    | error failure => exact ⟨rfl, rfl⟩
    | ok call => exact ⟨rfl, rfl⟩

end Rpc

namespace Http

/-- The call that a request makes, if it makes one. A request for headers makes the call of the
request for the whole answer. -/
def Request.call? (request : Request) : Option Rpc.Call :=
  match Route.ofTarget request.target with
  | .nowhere => none
  | .keys => if request.method = .get ∨ request.method = .head then some .list else none
  | .key segment =>
    (keyOfSegment? segment).bind fun key =>
      match request.method with
      | .get | .head => some (.get key)
      | .delete => some (.delete key)
      | .put =>
        if request.body.length > maxBodyBytes then none
        else (SetBody.parse? request.body).map fun write => .set key write.value write.ttlSeconds
      | .other _ => none

theorem call?_of_makes {request : Request} {call : Rpc.Call} (makes : Makes request call) :
    request.call? = some call := by
  cases makes with
  | list names =>
    rw [Request.call?, ofTarget_of_namesKeys names]
    exact if_pos (.inl rfl)
  | get names named | delete names named =>
    obtain ⟨segment, route, decoded⟩ := ofTarget_of_namesKey names named
    rw [Request.call?, route]
    simp only [decoded, Option.bind_some]
  | set names named fits carries =>
    obtain ⟨segment, route, decoded⟩ := ofTarget_of_namesKey names named
    rw [Request.call?, route]
    simp only [decoded, Option.bind_some, if_neg (Nat.not_lt.mpr fits),
      SetBody.parse?_of_spelled carries, Option.map_some]

/-- What an outcome leaves is what a call leaves, and so is what it logs. -/
def Does (store : Store) (now : Instant) (outcome : Outcome) (call? : Option Rpc.Call) : Prop :=
  outcome.1 = (Rpc.effect store now call?).1 ∧
    outcome.2.2 = (Rpc.effect store now call?).2.map (Event.via .http)

section

variable (store : Store) (now : Instant)

theorem does_refuse (response : Response) : Does store now (refuse store response) none :=
  ⟨rfl, rfl⟩

theorem does_getKey (key : String) : Does store now (getKey store now key) (some (.get key)) := by
  simp only [Does, getKey, Rpc.effect, Rpc.handle]
  cases checkKey key with
  | error refusal => exact ⟨rfl, rfl⟩
  | ok =>
    obtain ⟨after, found⟩ := store.get key now
    cases found <;> exact ⟨rfl, rfl⟩

theorem does_deleteKey (key : String) :
    Does store now (deleteKey store now key) (some (.delete key)) := by
  simp only [Does, deleteKey, Rpc.effect, Rpc.handle]
  cases checkKey key <;> exact ⟨rfl, rfl⟩

/-- A key that is refused is refused before the body is read. -/
theorem does_setKey (key : String) (body : Bytes) : Does store now (setKey store now key body)
    ((SetBody.parse? body).map fun write => .set key write.value write.ttlSeconds) := by
  unfold setKey
  cases SetBody.parse? body with
  | none => split <;> exact does_refuse store now _
  | some write =>
    simp only [Does, Option.map_some, Rpc.effect, Rpc.handle]
    cases checkKey key with
    | error refusal => exact ⟨rfl, rfl⟩
    | ok =>
      simp only
      cases checkValue write.value <;> exact ⟨rfl, rfl⟩

theorem does_withKey {segment : Bytes} {handler : String → Outcome}
    {call? : String → Option Rpc.Call} (does : ∀ key, Does store now (handler key) (call? key)) :
    Does store now (withKey store segment handler) ((keyOfSegment? segment).bind call?) := by
  unfold withKey
  cases keyOfSegment? segment with
  | none => exact does_refuse store now _
  | some key => exact does key

/-- A request does what its call does. -/
theorem does_handle (request : Request) :
    Does store now (handle store now request) request.call? := by
  unfold handle Request.call?
  cases Route.ofTarget request.target with
  | nowhere => exact does_refuse store now _
  | keys =>
    cases request.method with
    | get | head => exact ⟨rfl, rfl⟩
    | put | delete | other => exact does_refuse store now _
  | key segment =>
    cases request.method with
    | get | head => exact does_withKey store now (does_getKey store now)
    | delete => exact does_withKey store now (does_deleteKey store now)
    | put =>
      refine does_withKey store now fun key => ?_
      simp only
      split
      · exact does_refuse store now _
      · exact does_setKey store now key _
    | other name =>
      show Does store now (refuse store _) ((keyOfSegment? segment).bind fun _ => none)
      rw [Option.bind_fun_none]
      exact does_refuse store now _

end

end Http

end ExpiringStore
