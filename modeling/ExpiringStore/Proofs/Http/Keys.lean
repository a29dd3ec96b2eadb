import ExpiringStore.Proofs.Concerns
import ExpiringStore.Proofs.FrontEnds
import ExpiringStore.Proofs.SizeLimits

/-!
# One entry behind every spelling of its key

A path is matched before it is decoded, and its segment is decoded once. So a request
depends on the key that its path spells and not on the spelling, and it has to do with the
entry under that key alone.
-/
namespace ExpiringStore

namespace Http

def handleKey (store : Store) (now : Instant) (key : String) (method : Method)
    (body : Bytes) : Outcome :=
  match method with
  | .get => getKey store now key
  | .head => headOnly (getKey store now key)
  | .put =>
    if body.length > maxBodyBytes then refuse store bodyTooLarge else setKey store now key body
  | .delete => deleteKey store now key
  | .other _ => refuse store (.methodNotAllowed "GET,HEAD,PUT,DELETE")

/-- Whether a target leads to a key, in a spelling that clients are meant to use or in any other. -/
def LeadsTo (target key : String) : Prop :=
  ∃ segment, Route.ofTarget target = .key segment ∧ keyOfSegment? segment = some key

/-- A request depends on the key that its target leads to. -/
theorem handle_of_leadsTo {target key : String} (leads : LeadsTo target key) (store : Store)
    (now : Instant) (method : Method) (headers : List (String × String)) (body : Bytes) :
    handle store now ⟨method, target, headers, body⟩ = handleKey store now key method body := by
  obtain ⟨segment, route, decoded⟩ := leads
  cases method <;> simp only [handle, route, withKey, decoded, handleKey, bodyTooLarge]

/-- A request depends on the key that its path names, not on the way in which the path spells it. -/
theorem handle_of_namesKey {target key : String} (names : NamesKey target key) (named : key ≠ "")
    (store : Store) (now : Instant) (method : Method) (headers : List (String × String))
    (body : Bytes) :
    handle store now ⟨method, target, headers, body⟩ = handleKey store now key method body :=
  handle_of_leadsTo (ofTarget_of_namesKey names named) store now method headers body

/-- A path names one key only. -/
theorem NamesKey.unique {target key other : String} (names : NamesKey target key)
    (namesOther : NamesKey target other) (named : key ≠ "") (otherNamed : other ≠ "") :
    key = other := by
  obtain ⟨segment, route, decoded⟩ := ofTarget_of_namesKey names named
  obtain ⟨segment', route', decoded'⟩ := ofTarget_of_namesKey namesOther otherNamed
  obtain rfl : segment = segment' := Route.key.inj (route.symm.trans route')
  exact Option.some.inj (decoded.symm.trans decoded')

section

variable (now : Instant) (key : String)

theorem concerns_getKey : Concerns key fun store => getKey store now key := by
  simp only [getKey]
  cases checkKey key with
  | error refusal => exact .const _
  | ok =>
    have told := (@Concerns.get key now).map fun found =>
      (found.elim ApiError.notFound.response fun value => .json 200
        (.single "value" (.ofString value)), [Event.getRequest .http (logKey key)])
    refine told.congr fun store => ?_
    obtain ⟨after, found⟩ := store.get key now
    cases found <;> rfl

theorem concerns_setKey (body : Bytes) : Concerns key fun store => setKey store now key body := by
  simp only [setKey]
  cases checkKey key with
  | error refusal => exact .const _
  | ok =>
    cases SetBody.parse? body with
    | none => exact .const _
    | some write =>
      obtain ⟨value, ttlSeconds⟩ := write
      simp only
      cases checkValue value with
      | error refusal => exact .const _
      | ok => exact .set value (ttlOfSeconds ttlSeconds) now _

theorem concerns_deleteKey : Concerns key fun store => deleteKey store now key := by
  simp only [deleteKey]
  cases checkKey key with
  | error refusal => exact .const _
  | ok =>
    exact (@Concerns.delete key now).map fun deleted =>
      (Response.json 200 (.single "deleted" (.bool deleted)),
        [Event.deleteRequest .http (logKey key)])

/-- A request whose path names a key concerns that key. -/
theorem concerns_handleKey (method : Method) (body : Bytes) :
    Concerns key fun store => handleKey store now key method body := by
  cases method with
  | get => exact concerns_getKey now key
  | head => exact (concerns_getKey now key).map fun told => (told.1.withoutBody, told.2)
  | put =>
    simp only [handleKey]
    split
    · exact .const _
    · exact concerns_setKey now key body
  | delete => exact concerns_deleteKey now key
  | other name => exact .const _

end

/-- A request has done what a call has done: the same store is left, the same lines are logged, and
the two are answered alike. -/
structure Matches (outcome : Outcome) (called : Rpc.Outcome) : Prop where
  store : outcome.1 = called.1
  lines : outcome.2.2.map Event.line = called.2.2.map Event.line
  answers : Corresponds outcome.2.1 called.2.1

theorem Makes.matches {request : Request} {call : Rpc.Call} (makes : Makes request call)
    (store : Store) (now : Instant) :
    Matches (handle store now request) (Rpc.handle store now call) := by
  obtain ⟨stores, lines, answers⟩ := handle_eq_rpc makes store now
  exact ⟨stores, lines, answers⟩

theorem getKey_eq_of_live {store : Store} {now : Instant} {key : String} {entry : Entry}
    (admissible : checkKey key = .ok ()) (live : store.table.live? key now = some entry) :
    getKey store now key =
      (store, .json 200 (.single "value" (.ofString entry.value)),
        [.getRequest .http (logKey key)]) := by
  simp only [getKey, admissible, Store.get_of_live live]

/-- A live value is told. -/
theorem getKey_of_live {store : Store} {now : Instant} {key : String} {entry : Entry}
    (admissible : checkKey key = .ok ()) (live : store.table.live? key now = some entry) :
    (getKey store now key).2.1 = .json 200 (.single "value" (.ofString entry.value)) :=
  congrArg (·.2.1) (getKey_eq_of_live admissible live)

/-- Whatever the spelling of a key in a path, reading, writing and removing there is the remote call
on that key, and has to do with the entry under that key alone. All spellings of a key do the same,
those of another key do nothing to it, and what a remote write stores is read at each of them. -/
theorem spellings_share_one_entry {key target : String} (filled : 0 < key.utf8ByteSize)
    (keyFits : key.utf8ByteSize ≤ maxKeyBytes) (names : NamesKey target key) (now : Instant) :
    (∀ store headers body,
      Matches (handle store now ⟨.get, target, headers, body⟩) (Rpc.handle store now (.get key)) ∧
      Matches (handle store now ⟨.delete, target, headers, body⟩)
        (Rpc.handle store now (.delete key)) ∧
      ∀ value ttlSeconds, SetBody.Spelled ⟨value, ttlSeconds⟩ body → body.length ≤ maxBodyBytes →
        Matches (handle store now ⟨.put, target, headers, body⟩)
          (Rpc.handle store now (.set key value ttlSeconds))) ∧
    (∀ method headers body, Concerns key fun store =>
      handle store now ⟨method, target, headers, body⟩) ∧
    (∀ spelling, NamesKey spelling key → ∀ store method headers body,
      handle store now ⟨method, spelling, headers, body⟩ =
        handle store now ⟨method, target, headers, body⟩) ∧
    (∀ other spelling, other ≠ key → 0 < other.utf8ByteSize → NamesKey spelling other →
      spelling ≠ target ∧ ∀ store method headers body,
        (handle store now ⟨method, spelling, headers, body⟩).1.table.find? key =
          store.table.find? key) ∧
    (∀ store value ttlSeconds t headers body, value.utf8ByteSize ≤ maxValueBytes →
      (Entry.withTtl value (ttlOfSeconds ttlSeconds) now).expiredAt t = false →
      (handle (Rpc.handle store now (.set key value ttlSeconds)).1 t
        ⟨.get, target, headers, body⟩).2.1 = .json 200 (.single "value" (.ofString value))) := by
  have named := ne_empty_of_filled filled
  have decoded := handle_of_namesKey names named
  refine ⟨fun store headers body => ⟨?_, ?_, ?_⟩, ?_, ?_, ?_, ?_⟩
  · exact (Makes.get names named).matches store now
  · exact (Makes.delete names named).matches store now
  · intro value ttlSeconds carries fits
    exact (Makes.set names named fits carries).matches store now
  · intro method headers body
    exact (concerns_handleKey now key method body).congr fun store =>
      (decoded store now method headers body).symm
  · intro spelling spells store method headers body
    rw [decoded, handle_of_namesKey spells named]
  · intro other spelling differs otherFilled spells
    have otherNamed := ne_empty_of_filled otherFilled
    refine ⟨?_, fun store method headers body => ?_⟩
    · rintro rfl
      exact differs (spells.unique names otherNamed named)
    · rw [handle_of_namesKey spells otherNamed]
      exact (concerns_handleKey now other method body).elsewhere store key differs.symm
  · intro store value ttlSeconds t headers body valueFits lasts
    have checked : checkWrite key value = .ok () :=
      checkWrite_of_admissible filled keyFits valueFits
    have live := Store.live?_set store key value (ttlOfSeconds ttlSeconds) now t
    rw [lasts, if_neg Bool.false_ne_true] at live
    have written : (Rpc.handle store now (.set key value ttlSeconds)).1 =
        store.set key value (ttlOfSeconds ttlSeconds) now := by rw [Rpc.handle_set, checked]
    have told := getKey_of_live (checkKey_of_admissible filled keyFits) live
    rw [written, decoded]
    exact told

/-- A key of dots, a slash and a percent sign, some of them escaped, with a query behind it. -/
theorem namesKey_dots : NamesKey "/keys/.%2E%2f%25?v=1" "../%" := by
  have spelled : Percent.Spelled [0x2e, 0x2e, 0x2f, 0x25]
      [0x2e, 0x25, 0x32, 0x45, 0x25, 0x32, 0x66, 0x25, 0x32, 0x35] := by
    have two : Bytes.IsHex 2 0x32 := .inl (by decide)
    refine .plain (by simp [Percent.IsPlain]) (.escape two (l := 14) ?_ (by decide)
      (.escape two (l := 15) ?_ (by decide) (.escape two (l := 5) ?_ (by decide) .nil)))
    · exact .inr (by decide)
    · exact .inr (by decide)
    · exact .inl (by decide)
  exact ⟨_, [0x3f, 0x76, 0x3d, 0x31], spelled, .some _, by decide⟩

theorem spellings_share_one_entry_dots :
    let store := (Store.create .standard ⟨0, 0⟩).1
    let written := (Rpc.handle store ⟨0, 0⟩ (.set "../%" "v" 60)).1
    let target := "/keys/.%2E%2f%25?v=1"
    (handle written ⟨59, 0⟩ ⟨.get, target, [], []⟩).2.1 =
      .json 200 (.single "value" (.ofString "v")) ∧
      handle written ⟨0, 0⟩ ⟨.delete, escapedTarget "../%", [], []⟩ =
        handle written ⟨0, 0⟩ ⟨.delete, target, [], []⟩ ∧
      (handle written ⟨0, 0⟩ ⟨.delete, escapedTarget "..", [], []⟩).1.table.find? "../%" =
        written.table.find? "../%" := by
  intro store written target
  obtain ⟨-, -, spellings, others, readable⟩ :=
    spellings_share_one_entry (by decide) (by decide) namesKey_dots ⟨0, 0⟩
  refine ⟨?_, ?_, ?_⟩
  · exact readable store "v" 60 ⟨59, 0⟩ [] [] (by decide) (by decide)
  · exact spellings _ (namesKey_escapedTarget "../%") written .delete [] []
  · have elsewhere := others ".." _ (by decide) (by decide) (namesKey_escapedTarget "..")
    exact elsewhere.2 written .delete [] []

end Http

end ExpiringStore
