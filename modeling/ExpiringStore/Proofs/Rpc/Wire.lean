import ExpiringStore.Proofs.Rpc.Spelling
import ExpiringStore.Proofs.SizeLimits
import ExpiringStore.Rpc.Client

/-!
# Calls on the wire

The bytes of a call, in whatever spelling of its message, are handled as the call, and the bytes of
a reply are read as the reply.
-/
namespace ExpiringStore

namespace Frame

/-- A message has one frame only. -/
theorem Spelled.eq_wrap {message bytes : Bytes} (spelled : Spelled message bytes) :
    bytes = wrap message := by
  obtain @⟨a, b, c, d, _, sized⟩ := spelled
  have bounds := And.intro a.toNat_lt (And.intro b.toNat_lt (And.intro c.toNat_lt d.toNat_lt))
  have first : (message.length / 16777216).toUInt8 = a := by
    apply UInt8.toNat_inj.mp
    simp
    omega
  have second : (message.length / 65536).toUInt8 = b := by
    apply UInt8.toNat_inj.mp
    simp
    omega
  have third : (message.length / 256).toUInt8 = c := by
    apply UInt8.toNat_inj.mp
    simp
    omega
  have fourth : message.length.toUInt8 = d := by
    apply UInt8.toNat_inj.mp
    simp
    omega
  simp only [wrap, first, second, third, fourth]

/-- A message that is not too long for four bytes of length has a frame. -/
theorem spelled_wrap {message : Bytes} (fits : message.length < UInt32.size) :
    Spelled message (wrap message) := by
  have size : UInt32.size = 4294967296 := rfl
  refine .mk ?_
  simp only [Nat.toUInt8_eq, UInt8.toNat_ofNat']
  omega

end Frame

namespace Rpc

namespace Call

theorem foldlM_addKeyField {key : String} {fields : List Field} (given : KeyGiven key fields) :
    fields.foldlM addKeyField "" = some key := by
  induction given with
  | nil => rfl
  | key _ text ih => simp [List.foldlM_append, ih, addKeyField, text?, Bytes.toString?_ofString]
  | @other key fields _ field unknown ih =>
    have skipped : addKeyField key field = some key := if_neg (Nat.ne_of_gt unknown)
    simp [List.foldlM_append, ih, skipped]

/-- A message that makes a call is read as that call. -/
theorem decode?_of_callSpelled {call : Call} {message : Bytes} (spelled : call.Spelled message) :
    decode? call.method message = some call := by
  cases call with
  | get key | delete key =>
    obtain ⟨fields, given, row⟩ := spelled
    rw [decode?, Field.parse?_of_row row]
    simp only [method, foldlM_addKeyField given, Option.map_some]
  | set key value ttlSeconds => exact SetArguments.decode?_of_spelled spelled
  | list =>
    obtain ⟨fields, row⟩ := spelled
    rw [decode?, Field.parse?_of_row row]
    rfl

end Call

namespace Reply

def boolFields (number : Nat) (b : Bool) : List Field :=
  if b then [⟨number, .varint 1⟩] else []

def fields : Reply → List Field
  | .value text found => Call.SetArguments.textFields 1 text ++ boolFields 2 found
  | .written => []
  | .deleted wasLive => boolFields 1 wasLive
  | .keys listed => listed.map fun key => ⟨1, .bytes (Bytes.ofString key)⟩

theorem row_boolField {number : Nat} (numbered : 0 < number ∧ number < 536870912) (b : Bool) :
    Field.Row (boolFields number b) (boolField number b) := by
  cases b with
  | false => exact .nil
  | true =>
    have keyed : Varint.Spelled (8 * number) (Varint.write (8 * number)) := by
      have fits := Call.SetArguments.key_lt numbered.2
      exact Varint.spelled_write (by omega)
    have one : Varint.Spelled 1 [1] := Varint.spelled_byte 1 (by decide)
    exact .single numbered (.varint keyed one)

theorem row_keys {listed : List String} (fit : ∀ key ∈ listed, key.utf8ByteSize < UInt64.size) :
    Field.Row (fields (.keys listed)) (encode (.keys listed)) := by
  induction listed with
  | nil => exact .nil
  | cons key rest ih =>
    have others := ih fun other mem => fit other (List.mem_cons_of_mem _ mem)
    have keyed := Varint.spelled_write (Call.SetArguments.key_lt (by decide : 1 < 536870912))
    have sized := Varint.spelled_write (fit key List.mem_cons_self)
    have field := @Field.Spelled.bytes _ _ _ (Bytes.ofString key) keyed sized
    rw [fields, encode, List.map_cons, List.flatMap_cons, bytesField,
      List.append_assoc (Varint.write _)]
    exact .cons (by decide : 0 < 1 ∧ 1 < 536870912) field others

/-- The message of a reply is its fields. -/
theorem row_encode {reply : Reply} (fit : ∀ text ∈ reply.texts, text.utf8ByteSize < UInt64.size) :
    Field.Row reply.fields reply.encode := by
  cases reply with
  | value text found =>
    have value := Call.SetArguments.row_textField (by decide : 0 < 1 ∧ 1 < 536870912)
      (fit text List.mem_cons_self)
    exact value.append (row_boolField (by decide) found)
  | written => exact .nil
  | deleted wasLive => exact row_boolField (by decide) wasLive
  | keys listed => exact row_keys fit

theorem foldlM_addFoundField (text : String) (found : Bool) :
    (fields (.value text found)).foldlM addFoundField ⟨"", false⟩ = some ⟨text, found⟩ := by
  have value : (Call.SetArguments.textFields 1 text).foldlM addFoundField ⟨"", false⟩ =
      some ⟨text, false⟩ := by
    unfold Call.SetArguments.textFields
    split
    · rename_i empty
      rw [String.isEmpty_iff.mp empty]
      rfl
    · simp [addFoundField, Call.text?, Bytes.toString?_ofString]
  rw [fields, List.foldlM_append, value]
  cases found <;> rfl

theorem foldlM_addKeysField (listed earlier : List String) :
    (fields (.keys listed)).foldlM addKeysField earlier = some (earlier ++ listed) := by
  induction listed generalizing earlier with
  | nil => simp [fields]
  | cons key rest ih =>
    have added : addKeysField earlier ⟨1, .bytes (Bytes.ofString key)⟩ =
        some (earlier ++ [key]) := by
      simp [addKeysField, Call.text?, Bytes.toString?_ofString]
    have others := ih (earlier ++ [key])
    rw [List.append_assoc, List.singleton_append] at others
    exact foldlM_cons added others

/-- A reply is read back from its message. -/
theorem decode?_encode {reply : Reply}
    (fit : ∀ text ∈ reply.texts, text.utf8ByteSize < UInt64.size) :
    decode? reply.method reply.encode = some reply := by
  rw [decode?, Field.parse?_of_row (row_encode fit)]
  cases reply with
  | value text found => simp only [method, foldlM_addFoundField, Option.map_some]
  | written => rfl
  | deleted wasLive => cases wasLive <;> rfl
  | keys listed => simp only [method, foldlM_addKeysField, Option.map_some, List.nil_append]

end Reply

/-- A call is replied to by its method. -/
theorem method_of_handle {store : Store} {now : Instant} {call : Call} {reply : Reply}
    (replied : (handle store now call).2.1 = .ok reply) : reply.method = call.method := by
  cases call with
  | get key =>
    simp only [handle] at replied
    split at replied
    · cases replied
    · obtain rfl := Except.ok.inj replied
      cases (store.get key now).2 <;> rfl
  | set key value ttlSeconds =>
    rw [handle_set] at replied
    split at replied
    · cases replied
    · obtain rfl := Except.ok.inj replied
      rfl
  | delete key =>
    simp only [handle] at replied
    split at replied
    · cases replied
    · obtain rfl := Except.ok.inj replied
      rfl
  | list =>
    obtain rfl := Except.ok.inj replied
    rfl

/-- A frame with any message that makes a call does what the call does, with the same log and the
same reply or failure. A reply of texts whose lengths are numbers of 64 bits stands in the response
behind five bytes, in a message that a client reads as the reply, and the five bytes frame the
message if four of them are enough for its length. -/
theorem wire_calls_agree {call : Call} {message body : Bytes} (spelled : call.Spelled message)
    (fits : message.length ≤ Frame.maxMessageBytes) (framed : Frame.Spelled message body)
    (store : Store) (now : Instant) :
    handleRaw store now call.method.path body = handle store now call ∧
      ∀ reply, (handleRaw store now call.method.path body).2.1 = .ok reply →
        (∀ text ∈ reply.texts, text.utf8ByteSize < UInt64.size) →
        ∃ header answer, responseBytes (.ok reply) = header ++ answer ∧ header.length = 5 ∧
          Reply.decode? call.method answer = some reply ∧
          (answer.length < UInt32.size → Frame.Spelled answer (responseBytes (.ok reply))) := by
  have same : handleRaw store now call.method.path body = handle store now call := by
    rw [framed.eq_wrap]
    exact handleRaw_wrap (Call.decode?_of_callSpelled spelled) fits store now
  refine ⟨same, fun reply replied fit => ?_⟩
  rw [same] at replied
  refine ⟨(responseBytes (.ok reply)).take 5, reply.encode, rfl, rfl, ?_, Frame.spelled_wrap⟩
  rw [← method_of_handle replied]
  exact Reply.decode?_encode fit

/-- A field that a read does not have, in more bytes than it needs, and then two keys, the
last of which is meant. -/
theorem spelled_repeated :
    (Call.get "k").Spelled [0x28, 0x81, 0, 0x0a, 1, 0x78, 0x0a, 1, 0x6b] := by
  have padded : Varint.Spelled 1 [0x81, 0] := by
    have zero : Varint.Groups 0 [0] := .last (by decide : (0 : UInt8).toNat < 0x80)
    exact ⟨.more (by decide : 0x80 ≤ (0x81 : UInt8).toNat) zero, by decide, by decide⟩
  have unknown : Field.Spelled ⟨5, .varint 1⟩ [0x28, 0x81, 0] :=
    @Field.Spelled.varint 5 1 [0x28] _ (Varint.spelled_byte 0x28 (by decide)) padded
  have key (b : UInt8) : Field.Spelled ⟨1, .bytes [b]⟩ [0x0a, 1, b] :=
    @Field.Spelled.bytes 1 [0x0a] [1] [b] (Varint.spelled_byte 0x0a (by decide))
      (Varint.spelled_byte 1 (by decide))
  have given : Call.KeyGiven "k" [⟨5, .varint 1⟩, ⟨1, .bytes [0x78]⟩, ⟨1, .bytes [0x6b]⟩] :=
    .key (.key (.other .nil (by decide : 1 < 5)) "x") "k"
  have fifth : Field.Numbered ⟨5, .varint 1⟩ := (by decide : 0 < 5 ∧ 5 < 536870912)
  have first (b : UInt8) : Field.Numbered ⟨1, .bytes [b]⟩ := (by decide : 0 < 1 ∧ 1 < 536870912)
  exact ⟨_, given,
    .cons fifth unknown (.cons (first 0x78) (key 0x78) (.cons (first 0x6b) (key 0x6b) .nil))⟩

theorem wire_calls_agree_repeated :
    let store := (Store.create .standard ⟨0, 0⟩).1.set "k" "v" none ⟨0, 0⟩
    let body := [0, 0, 0, 0, 9, 0x28, 0x81, 0, 0x0a, 1, 0x78, 0x0a, 1, 0x6b]
    let outcome := handleRaw store ⟨0, 0⟩ Method.get.path body
    outcome.2.1 = .ok (.value "v" true) ∧
      ∃ header answer, responseBytes outcome.2.1 = header ++ answer ∧ header.length = 5 ∧
        Reply.decode? .get answer = some (.value "v" true) := by
  intro store body outcome
  have framed : Frame.Spelled [0x28, 0x81, 0, 0x0a, 1, 0x78, 0x0a, 1, 0x6b] body :=
    .mk (by decide : (0 : UInt8).toNat * 16777216 + (0 : UInt8).toNat * 65536 +
      (0 : UInt8).toNat * 256 + (9 : UInt8).toNat = 9)
  obtain ⟨same, answered⟩ := wire_calls_agree spelled_repeated (by decide) framed store ⟨0, 0⟩
  have replied : outcome.2.1 = .ok (.value "v" true) := congrArg (·.2.1) same
  have fit : ∀ text ∈ (Reply.value "v" true).texts, text.utf8ByteSize < UInt64.size := by
    intro text mem
    obtain rfl := List.mem_singleton.mp mem
    decide
  obtain ⟨header, answer, split, five, read, -⟩ := answered _ replied fit
  rw [replied]
  exact ⟨rfl, header, answer, split, five, read⟩

end Rpc

end ExpiringStore
