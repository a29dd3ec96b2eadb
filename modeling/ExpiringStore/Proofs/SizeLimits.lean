import ExpiringStore.Proofs.Http.BodySize
import ExpiringStore.Proofs.Rpc.Spelling

/-!
# Limits within limits

A write is checked against the limits on keys and values only after its body, or its message,
has passed a limit of its own. Over HTTP that limit is on the document, in which a value may
take more room than its bytes; so an admissible write need not be stored, and one over a
limit need not be told which.
-/
namespace ExpiringStore

def checkWrite (key value : String) : Except Refusal Unit :=
  match checkKey key with
  | .error refusal => .error refusal
  | .ok _ => checkValue value

/-- What is wrong with a write that is over a limit. A key that is too long is told first. -/
def overLimit (key : String) : Refusal :=
  if maxKeyBytes < key.utf8ByteSize then .keyTooLong else .valueTooLong

theorem checkKey_of_admissible {key : String} (filled : 0 < key.utf8ByteSize)
    (keyFits : key.utf8ByteSize ≤ maxKeyBytes) : checkKey key = .ok () := by
  rw [checkKey, if_neg (Nat.ne_of_gt filled), if_neg (Nat.not_lt.mpr keyFits)]

theorem checkKey_eq_ok_iff {key : String} :
    checkKey key = .ok () ↔ 0 < key.utf8ByteSize ∧ key.utf8ByteSize ≤ maxKeyBytes := by
  refine ⟨fun accepted => ?_, fun ⟨filled, fits⟩ => checkKey_of_admissible filled fits⟩
  unfold checkKey at accepted
  split at accepted
  · cases accepted
  · split at accepted
    · cases accepted
    · omega

theorem checkWrite_of_admissible {key value : String} (filled : 0 < key.utf8ByteSize)
    (keyFits : key.utf8ByteSize ≤ maxKeyBytes) (valueFits : value.utf8ByteSize ≤ maxValueBytes) :
    checkWrite key value = .ok () := by
  rw [checkWrite, checkKey_of_admissible filled keyFits]
  exact if_neg (Nat.not_lt.mpr valueFits)

theorem checkWrite_of_over {key value : String} (filled : 0 < key.utf8ByteSize)
    (exceeds : maxKeyBytes < key.utf8ByteSize ∨ maxValueBytes < value.utf8ByteSize) :
    checkWrite key value = .error (overLimit key) := by
  rw [checkWrite, checkKey, if_neg (Nat.ne_of_gt filled), overLimit]
  by_cases long : maxKeyBytes < key.utf8ByteSize
  · rw [if_pos long, if_pos long]
  · rw [if_neg long, if_neg long]
    exact if_pos (exceeds.resolve_left long)

theorem ne_empty_of_filled {key : String} (filled : 0 < key.utf8ByteSize) : key ≠ "" := by
  rintro rfl
  exact absurd filled (by decide)

namespace Http

def bodyTooLarge : Response := .plain 413 "Failed to buffer the request body: length limit exceeded"

/-- A write over HTTP: its body's size is judged first, and then its key and its value. -/
theorem handle_put {target key value : String} {ttlSeconds : Int64} {body : Bytes}
    (names : NamesKey target key) (filled : 0 < key.utf8ByteSize)
    (carries : SetBody.Spelled ⟨value, ttlSeconds⟩ body) (headers : List (String × String))
    (store : Store) (now : Instant) :
    handle store now ⟨.put, target, headers, body⟩ =
      if body.length ≤ maxBodyBytes then
        match checkWrite key value with
        | .error refusal => (store, .json 400 (.single "error" (.ofString refusal.message)), [])
        | .ok _ =>
          (store.set key value (ttlOfSeconds ttlSeconds) now, .empty 204,
            [.setRequest .http (logKey key) ttlSeconds])
      else (store, bodyTooLarge, []) := by
  obtain ⟨segment, route, decoded⟩ := ofTarget_of_namesKey names (ne_empty_of_filled filled)
  have read := SetBody.parse?_of_spelled carries
  by_cases fits : body.length ≤ maxBodyBytes
  · simp only [handle, route, withKey, decoded, if_neg (Nat.not_lt.mpr fits), if_pos fits,
      setKey, read, checkWrite]
    cases checkKey key with
    | error refusal => rfl
    | ok =>
      cases checkValue value with
      | error refusal => rfl
      | ok => rfl
  · simp only [handle, route, withKey, decoded, if_pos (Nat.lt_of_not_le fits), if_neg fits]
    rfl

end Http

namespace Rpc

/-- A remote write: its key and its value are judged. -/
theorem handle_set (key value : String) (ttlSeconds : Int64) (store : Store) (now : Instant) :
    handle store now (.set key value ttlSeconds) =
      match checkWrite key value with
      | .error refusal => (store, .error (.invalidArgument refusal), [])
      | .ok _ =>
        (store.set key value (ttlOfSeconds ttlSeconds) now, .ok .written,
          [.setRequest .grpc (logKey key) ttlSeconds]) := by
  simp only [handle, checkWrite]
  cases checkKey key with
  | error refusal => rfl
  | ok =>
    cases checkValue value with
    | error refusal => rfl
    | ok => rfl

end Rpc

/-! ## Admissible writes -/

/-- A write within the limits on keys and values is stored remotely. Over HTTP it is stored if its
document fits into a body, which depends on the characters of the value; otherwise it is refused
and nothing is stored. -/
theorem admissible_write_over_http (key value : String) (filled : 0 < key.utf8ByteSize)
    (keyFits : key.utf8ByteSize ≤ maxKeyBytes) (valueFits : value.utf8ByteSize ≤ maxValueBytes)
    {target : String} (names : Http.NamesKey target key) (ttlSeconds : Int64)
    (headers : List (String × String)) (store : Store) (now : Instant) :
    let body := (Http.SetBody.document ⟨value, ttlSeconds⟩).render
    let size := 27 + Literal.textSize value + (toString ttlSeconds.toInt).utf8ByteSize
    let written := store.set key value (ttlOfSeconds ttlSeconds) now
    written.table.find? key = some (Entry.withTtl value (ttlOfSeconds ttlSeconds) now) ∧
      Rpc.handle store now (.set key value ttlSeconds) =
        (written, .ok .written, [.setRequest .grpc (logKey key) ttlSeconds]) ∧
      Http.handle store now ⟨.put, target, headers, body⟩ =
        if size ≤ Http.maxBodyBytes then
          (written, .empty 204, [.setRequest .http (logKey key) ttlSeconds])
        else (store, Http.bodyTooLarge, []) := by
  intro body size written
  have checked := checkWrite_of_admissible filled keyFits valueFits
  have carries := Http.SetBody.spelled_document ⟨value, ttlSeconds⟩
  have length : body.length = size := Http.SetBody.length_render_document ⟨value, ttlSeconds⟩
  refine ⟨?_, ?_, ?_⟩
  · exact (Table.find?_insert store.table key key _).trans (if_pos rfl)
  · rw [Rpc.handle_set, checked]
  · rw [Http.handle_put names filled carries, checked, length]

theorem admissible_write_over_http_escaped :
    let outcome :=
      Http.handle (Store.create .standard ⟨0, 0⟩).1 ⟨0, 0⟩ (Http.requestOf (.set "k" "a\nb" 60))
    outcome.2.1 = .empty 204 ∧
      outcome.1.table.find? "k" = some (Entry.expiringAt "a\nb" ⟨60, 0⟩) := by
  intro outcome
  obtain ⟨held, -, stored⟩ := admissible_write_over_http "k" "a\nb" (by decide)
    (by decide) (by decide) (Http.namesKey_escapedTarget "k") 60 []
    (Store.create .standard ⟨0, 0⟩).1 ⟨0, 0⟩
  rw [if_pos (by decide)] at stored
  have deadline : Entry.withTtl "a\nb" (ttlOfSeconds 60) ⟨0, 0⟩ =
      Entry.expiringAt "a\nb" ⟨60, 0⟩ := by
    decide
  rw [deadline] at held
  exact ⟨congrArg (·.2.1) stored, (congrArg (·.1.table.find? "k") stored).trans held⟩

def repeated (c : Char) (n : Nat) : String := String.ofList (List.replicate n c)

theorem utf8ByteSize_repeated {c : Char} (ascii : c.toNat < 0x80) (n : Nat) :
    (repeated c n).utf8ByteSize = n := by
  rw [← Bytes.length_ofString, repeated, Bytes.ofString_replicate ascii, List.length_replicate]

theorem textSize_repeated {c : Char} (ascii : c.toNat < 0x80) (n : Nat) :
    Literal.textSize (repeated c n) = n * Literal.escapedSize c.toNat.toUInt8 := by
  rw [Literal.textSize, repeated, Bytes.ofString_replicate ascii, Literal.escapedSizes_replicate]

/-- A value that takes as much room as a body has is not stored over HTTP, as
there is more in a body. -/
theorem put_repeated_of_large {c : Char} (ascii : c.toNat < 0x80) {n : Nat}
    (large : Http.maxBodyBytes ≤ n * Literal.escapedSize c.toNat.toUInt8) (store : Store)
    (now : Instant) :
    Http.handle store now (Http.requestOf (.set "k" (repeated c n) 0)) =
      (store, Http.bodyTooLarge, []) := by
  have carries := Http.SetBody.spelled_document ⟨repeated c n, 0⟩
  have tooLong : ¬(Http.SetBody.document ⟨repeated c n, 0⟩).render.length ≤ Http.maxBodyBytes := by
    rw [Http.SetBody.length_render_document, textSize_repeated ascii]
    omega
  rw [Http.requestOf, Http.handle_put (Http.namesKey_escapedTarget "k") (by decide) carries,
    if_neg tooLong]

/-- As many quotes as a value may have bytes take twice their room in a document. -/
theorem quotes_not_stored_over_http :
    let value := repeated '"' 1048576
    let store := (Store.create .standard ⟨0, 0⟩).1
    let outcome := Http.handle store ⟨0, 0⟩ (Http.requestOf (.set "k" value 0))
    value.utf8ByteSize ≤ maxValueBytes ∧ outcome.2.1.status = 413 ∧
      outcome.1.table.find? "k" = none := by
  intro value store outcome
  have refused : outcome = (store, Http.bodyTooLarge, []) :=
    put_repeated_of_large (by decide) (by decide) store ⟨0, 0⟩
  refine ⟨?_, ?_, ?_⟩
  · rw [utf8ByteSize_repeated (by decide)]
    decide
  · rw [refused]
    rfl
  · rw [refused]
    rfl

/-! ## Writes over a limit -/

/-- A write with a key or a value that is too long changes nothing and logs nothing. It is told so
if its body, or its message, is not too large itself; otherwise it is refused for that. -/
theorem over_limit_write_answers (key value : String) (filled : 0 < key.utf8ByteSize)
    (exceeds : maxKeyBytes < key.utf8ByteSize ∨ maxValueBytes < value.utf8ByteSize)
    (ttlSeconds : Int64) (store : Store) (now : Instant) :
    (∀ target headers body, Http.NamesKey target key →
      Http.SetBody.Spelled ⟨value, ttlSeconds⟩ body →
      Http.handle store now ⟨.put, target, headers, body⟩ =
        (store, if body.length ≤ Http.maxBodyBytes then
          .json 400 (.single "error" (.ofString (overLimit key).message))
        else Http.bodyTooLarge, [])) ∧
    (∀ message, Rpc.Call.SetArguments.Spelled ⟨key, value, ttlSeconds⟩ message →
      message.length < UInt32.size →
      Rpc.handleRaw store now Rpc.Method.set.path (Frame.wrap message) =
        (store, .error (if message.length ≤ Frame.maxMessageBytes
          then .invalidArgument (overLimit key) else .outOfRange), [])) := by
  have checked := checkWrite_of_over filled exceeds
  constructor
  · intro target headers body names carries
    rw [Http.handle_put names filled carries, checked]
    split <;> rfl
  · intro message spelled framed
    by_cases fits : message.length ≤ Frame.maxMessageBytes
    · have decoded := Rpc.Call.SetArguments.decode?_of_spelled spelled
      rw [Rpc.handleRaw_wrap decoded fits, Rpc.handle_set, checked, if_pos fits]
    · rw [Rpc.handleRaw_wrap_of_large framed (Nat.lt_of_not_le fits), if_neg fits]
      rfl

theorem over_limit_write_answers_longKey :
    let key := repeated 'k' 1025
    let arguments : Rpc.Call.SetArguments := ⟨key, "v", 0⟩
    let store := (Store.create .standard ⟨0, 0⟩).1
    (Http.handle store ⟨0, 0⟩ (Http.requestOf (.set key "v" 0))).2.1 =
        .json 400 (.single "error" (.ofString Refusal.keyTooLong.message)) ∧
      (Rpc.handleRaw store ⟨0, 0⟩ Rpc.Method.set.path (Frame.wrap arguments.encode)).2.1 =
        .error (.invalidArgument .keyTooLong) := by
  intro key arguments store
  have keySize : key.utf8ByteSize = 1025 := utf8ByteSize_repeated (by decide) 1025
  have told : overLimit key = .keyTooLong := if_pos (by rw [keySize]; decide)
  obtain ⟨http, grpc⟩ := over_limit_write_answers key "v" (by rw [keySize]; decide)
    (.inl (by rw [keySize]; decide)) 0 store ⟨0, 0⟩
  have body : Http.handle store ⟨0, 0⟩ (Http.requestOf (.set key "v" 0)) = _ :=
    http _ [] _ (Http.namesKey_escapedTarget key) (Http.SetBody.spelled_document ⟨"v", 0⟩)
  have keyFits : key.utf8ByteSize < UInt64.size := by rw [keySize]; decide
  have size := (Rpc.Call.SetArguments.length_encode arguments keyFits (by decide)).2
  have small : arguments.encode.length ≤ 1086 := by
    have both : arguments.key.utf8ByteSize + arguments.value.utf8ByteSize = 1026 :=
      congrArg (· + 1) keySize
    omega
  have message := grpc _ (Rpc.Call.SetArguments.spelled_encode arguments keyFits (by decide))
    (Nat.lt_of_le_of_lt small (by decide))
  rw [told, if_pos (by decide)] at body
  rw [told, if_pos (Nat.le_trans small (by decide))] at message
  exact ⟨congrArg (·.2.1) body, congrArg (·.2.1) message⟩

/-- A value so large that neither a body nor a message has room for it is refused in other words
than those for a value over the limit. -/
theorem huge_value_told_otherwise :
    let value := repeated 'x' 4194304
    let arguments : Rpc.Call.SetArguments := ⟨"k", value, 0⟩
    let store := (Store.create .standard ⟨0, 0⟩).1
    maxValueBytes < value.utf8ByteSize ∧ arguments.Spelled arguments.encode ∧
      (Http.handle store ⟨0, 0⟩ (Http.requestOf (.set "k" value 0))).2.1.status = 413 ∧
      (Rpc.handleRaw store ⟨0, 0⟩ Rpc.Method.set.path (Frame.wrap arguments.encode)).2.1 =
        .error .outOfRange := by
  intro value arguments store
  have valueSize : value.utf8ByteSize = 4194304 := utf8ByteSize_repeated (by decide) 4194304
  have valueFits : value.utf8ByteSize < UInt64.size := by rw [valueSize]; decide
  have body : Http.handle store ⟨0, 0⟩ (Http.requestOf (.set "k" value 0)) =
      (store, Http.bodyTooLarge, []) :=
    put_repeated_of_large (by decide) (by decide) store ⟨0, 0⟩
  obtain ⟨least, most⟩ := Rpc.Call.SetArguments.length_encode arguments (by decide) valueFits
  have both : arguments.key.utf8ByteSize + arguments.value.utf8ByteSize = 4194305 := by
    show "k".utf8ByteSize + value.utf8ByteSize = 4194305
    rw [valueSize]
    decide
  rw [both] at least most
  have message : Rpc.handleRaw store ⟨0, 0⟩ Rpc.Method.set.path (Frame.wrap arguments.encode) =
      Rpc.refuse store .outOfRange := by
    have framed : arguments.encode.length < UInt32.size := Nat.lt_of_le_of_lt most (by decide)
    exact Rpc.handleRaw_wrap_of_large framed least store ⟨0, 0⟩
  refine ⟨?_, Rpc.Call.SetArguments.spelled_encode arguments (by decide) valueFits, ?_, ?_⟩
  · rw [valueSize]
    decide
  · rw [body]
    rfl
  · rw [message]
    rfl

end ExpiringStore
