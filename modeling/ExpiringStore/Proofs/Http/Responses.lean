import ExpiringStore.Proofs.Json.Text
import ExpiringStore.Proofs.SizeLimits

/-!
# What responses are written in

A handler answers in JSON, and a request that is at fault is told so in an object of one member.
Requests that no handler sees, because the key in their path is no text or their body is too large,
are answered in plain text instead; no others are.
-/
namespace ExpiringStore

/-- The bytes that are JSON: UTF-8, and the text of a document. -/
structure Json.IsValid (bytes : Bytes) : Prop where
  text : bytes.IsText
  document : ∃ document : Json, document.Spelled bytes

namespace Http

namespace Response

/-- What the body of a response, if it has one, has to be: JSON that is announced as such, and for a
request at fault an object whose one member says what is wrong. -/
structure SpeaksJson (r : Response) : Prop where
  announced : r.body ≠ [] → r.contentType = some .json
  valid : r.body ≠ [] → Json.IsValid r.body
  fault : r.body ≠ [] → 400 ≤ r.status → r.status < 500 →
    ∃ message, (Json.single "error" (.ofString message)).Spelled r.body

def undecodableKey : Response := .plain 400 "Invalid URL: Invalid UTF-8 in \x60key\x60"

namespace SpeaksJson

theorem of_body_eq_nil {r : Response} (none : r.body = []) : r.SpeaksJson :=
  ⟨fun some => absurd none some, fun some => absurd none some, fun some => absurd none some⟩

theorem withoutBody (r : Response) : r.withoutBody.SpeaksJson := of_body_eq_nil rfl

theorem of_single {name : String} {value : Json} (wellFormed : value.WellFormed)
    (text : value.render.IsText) : (Response.json 200 (.single name value)).SpeaksJson where
  announced _ := rfl
  valid _ := ⟨Json.isText_single text, _, Json.spelled_render _ (Json.wellFormed_single wellFormed)⟩
  fault _ least _ := absurd least (by decide : ¬400 ≤ 200)

theorem of_error (e : ApiError) : e.response.SpeaksJson where
  announced _ := rfl
  valid _ := ⟨Json.isText_single (Json.isText_ofString _), _,
    Json.spelled_render _ (Json.wellFormed_single (Json.wellFormed_ofString _))⟩
  fault _ _ _ :=
    ⟨e.message, Json.spelled_render _ (Json.wellFormed_single (Json.wellFormed_ofString _))⟩

/-- A line of text is not JSON, whatever it says. -/
theorem not_plain {status : Nat} {text : String} (filled : Bytes.ofString text ≠ []) :
    ¬(Response.plain status text).SpeaksJson := by
  intro speaks
  have json : some ContentType.plainText = some ContentType.json := speaks.announced filled
  exact absurd json (by decide)

end SpeaksJson

end Response

/-- Whether a request is refused before a handler sees it: its path names a key that is no text, or
it is a write whose body is too large. -/
inductive Request.Unread (request : Request) : Prop
  | undecodable {segment : Bytes} (route : Route.ofTarget request.target = .key segment)
    (method : request.method = .get ∨ request.method = .put ∨ request.method = .delete)
    (noText : keyOfSegment? segment = none)
  | oversized {segment : Bytes} {key : String}
    (route : Route.ofTarget request.target = .key segment) (method : request.method = .put)
    (named : keyOfSegment? segment = some key)
    (large : maxBodyBytes < request.body.length)

section

variable (store : Store) (now : Instant)

theorem speaksJson_listKeys : (listKeys store now).2.1.SpeaksJson := by
  refine .of_single (Json.wellFormed_array _) (Json.isText_array fun item mem => ?_)
  obtain ⟨key, -, rfl⟩ := List.mem_map.mp mem
  exact Json.isText_ofString key

theorem speaksJson_getKey (key : String) : (getKey store now key).2.1.SpeaksJson := by
  unfold getKey
  split
  · exact .of_error _
  · split
    · exact .of_single (Json.wellFormed_ofString _) (Json.isText_ofString _)
    · exact .of_error _

theorem speaksJson_setKey (key : String) (body : Bytes) :
    (setKey store now key body).2.1.SpeaksJson := by
  unfold setKey
  split
  · exact .of_error _
  · split
    · exact .of_error _
    · split
      · exact .of_error _
      · exact .of_body_eq_nil rfl

theorem speaksJson_deleteKey (key : String) : (deleteKey store now key).2.1.SpeaksJson := by
  unfold deleteKey
  split
  · exact .of_error _
  · exact .of_single (Json.wellFormed_bool _) (Json.isText_bool _)

/-- A request that is not refused beforehand is answered in JSON, or with no body. -/
theorem speaksJson_handle {request : Request} (read : ¬request.Unread) :
    (handle store now request).2.1.SpeaksJson := by
  -- A segment that names no text is the first kind of request that no handler sees.
  have named {segment : Bytes} {handler : String → Outcome}
      (route : Route.ofTarget request.target = .key segment)
      (method : request.method = .get ∨ request.method = .put ∨ request.method = .delete)
      (speaks : ∀ key, keyOfSegment? segment = some key → (handler key).2.1.SpeaksJson) :
      (withKey store segment handler).2.1.SpeaksJson := by
    unfold withKey
    split
    · exact speaks _ ‹_›
    · exact absurd (.undecodable route method ‹_›) read
  unfold handle
  split
  · exact .of_body_eq_nil rfl
  · split
    · exact speaksJson_listKeys store now
    · exact .withoutBody _
    · exact .of_body_eq_nil rfl
  · rename_i segment route
    split
    · exact named route (.inl ‹_›) fun key _ => speaksJson_getKey store now key
    · exact .withoutBody _
    · rename_i method
      refine named route (.inr (.inl method)) fun key decoded => ?_
      split
      · exact absurd (.oversized route method decoded ‹_›) read
      · exact speaksJson_setKey store now key _
    · exact named route (.inr (.inr ‹_›)) fun key _ => speaksJson_deleteKey store now key
    · exact .of_body_eq_nil rfl

/-- A request that no handler sees is answered in one of two lines of text. -/
theorem handle_of_unread {request : Request} (unread : request.Unread) :
    (handle store now request).2.1 = .undecodableKey ∨
      (handle store now request).2.1 = bodyTooLarge := by
  cases unread with
  | undecodable route method noText =>
    rcases method with method | method | method <;>
      exact .inl (by simp only [handle, route, method, withKey, noText]; rfl)
  | oversized route method named large =>
    exact .inr (by simp only [handle, route, method, withKey, named, if_pos large]; rfl)

/-- Every response to a request that a handler sees, or that leads nowhere, has no body or speaks
JSON. The others are the two lines of text, and neither is JSON. -/
theorem speaksJson_iff_read (request : Request) :
    ((handle store now request).2.1.SpeaksJson ↔ ¬request.Unread) ∧
      (request.Unread → (handle store now request).2.1 = .undecodableKey ∨
        (handle store now request).2.1 = bodyTooLarge) := by
  refine ⟨⟨fun speaks unread => ?_, speaksJson_handle store now⟩, handle_of_unread store now⟩
  rcases handle_of_unread store now unread with told | told
  · rw [told] at speaks
    exact absurd speaks (Response.SpeaksJson.not_plain (by decide))
  · rw [told] at speaks
    exact absurd speaks (Response.SpeaksJson.not_plain (by decide))

end

/-- A write whose body is one byte too large is never read, and is told so in text. -/
theorem speaksJson_iff_read_oversized :
    let request : Request := ⟨.put, "/keys/k", [], List.replicate (maxBodyBytes + 1) 0⟩
    let response := (handle (Store.create .standard ⟨0, 0⟩).1 ⟨0, 0⟩ request).2.1
    request.Unread ∧ ¬response.SpeaksJson ∧
      (response = .undecodableKey ∨ response = bodyTooLarge) := by
  intro request response
  have unread : request.Unread := by
    have route : Route.ofTarget "/keys/k" = .key (Bytes.ofString "k") := by decide
    have named : keyOfSegment? (Bytes.ofString "k") = some "k" := by decide
    refine .oversized route rfl named ?_
    rw [List.length_replicate]
    exact Nat.lt_succ_self _
  obtain ⟨speaks, told⟩ := speaksJson_iff_read (Store.create .standard ⟨0, 0⟩).1 ⟨0, 0⟩ request
  exact ⟨unread, fun json => speaks.mp json unread, told unread⟩

/-- A read of a key whose escape is no UTF-8 is the client's fault, and it is
told so in plain text. -/
theorem undecodable_key_told_in_text :
    let response :=
      (handle (Store.create .standard ⟨0, 0⟩).1 ⟨0, 0⟩ ⟨.get, "/keys/%FF", [], []⟩).2.1
    response.status = 400 ∧
      response.body = Bytes.ofString "Invalid URL: Invalid UTF-8 in \x60key\x60" ∧
      response.contentType.map ContentType.name = some "text/plain; charset=utf-8" ∧
      ¬response.SpeaksJson := by
  intro response
  have told : response = .undecodableKey := by decide
  rw [told]
  exact ⟨rfl, rfl, rfl, Response.SpeaksJson.not_plain (by decide)⟩

end Http

end ExpiringStore
