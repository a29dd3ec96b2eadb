import ExpiringStore.Proofs.Wire.Spelling
import ExpiringStore.Rpc.Service
import ExpiringStore.Rpc.Spelling

/-!
# Calls are read as they are meant

Every message that carries a write is read as that write, and the bytes of a request are handled as
the call that they make, unless its message is too large.
-/
namespace ExpiringStore

namespace Rpc

namespace Call.SetArguments

/-- Fields are taken into account one after the other. -/
theorem foldlM_addSetField {arguments : SetArguments} {fields : List Field}
    (given : Given arguments fields) : fields.foldlM addSetField ⟨"", "", 0⟩ = some arguments := by
  induction given with
  | nil => rfl
  | key _ text ih | value _ text ih =>
    simp [List.foldlM_append, ih, addSetField, text?, Bytes.toString?_ofString]
  | ttlSeconds _ seconds ih => simp [List.foldlM_append, ih, addSetField, int64?]
  | @other arguments fields _ field unknown ih =>
    have skipped : addSetField arguments field = some arguments := by
      unfold addSetField
      split <;> first | omega | rfl
    simp [List.foldlM_append, ih, skipped]

/-- A message that carries a write is read as that write. -/
theorem decode?_of_spelled {arguments : SetArguments} {message : Bytes}
    (spelled : arguments.Spelled message) :
    decode? .set message = some (.set arguments.key arguments.value arguments.ttlSeconds) := by
  obtain ⟨fields, given, row⟩ := spelled
  rw [decode?, Field.parse?_of_row row]
  simp only [foldlM_addSetField given, Option.map_some]

def textFields (number : Nat) (text : String) : List Field :=
  if text.isEmpty then [] else [⟨number, .bytes (Bytes.ofString text)⟩]

def secondsFields (seconds : Int64) : List Field :=
  if seconds = 0 then [] else [⟨3, .varint seconds.toUInt64.toNat⟩]

theorem key_lt {number : Nat} (numbered : number < 536870912) : 8 * number + 2 < UInt64.size := by
  have size : UInt64.size = 18446744073709551616 := rfl
  omega

theorem row_textField {number : Nat} (numbered : 0 < number ∧ number < 536870912) {text : String}
    (fits : text.utf8ByteSize < UInt64.size) :
    Field.Row (textFields number text) (Reply.textField number text) := by
  unfold textFields Reply.textField
  split
  · exact .nil
  · have keyed := Varint.spelled_write (key_lt numbered.2)
    have spelled :=
      @Field.Spelled.bytes _ _ _ (Bytes.ofString text) keyed (Varint.spelled_write fits)
    rw [Reply.bytesField, List.append_assoc]
    exact .single numbered spelled

theorem row_seconds (seconds : Int64) : Field.Row (secondsFields seconds)
    (if seconds = 0 then [] else Varint.write 24 ++ Varint.write seconds.toUInt64.toNat) := by
  unfold secondsFields
  split
  · exact .nil
  · have keyed : Varint.Spelled (8 * 3) (Varint.write 24) := Varint.spelled_write (by decide)
    have value := Varint.spelled_write seconds.toUInt64.toNat_lt
    exact .single (by decide : 0 < 3 ∧ 3 < 536870912) (.varint keyed value)

theorem given_fields (arguments : SetArguments) :
    Given arguments (textFields 1 arguments.key ++ textFields 2 arguments.value ++
      secondsFields arguments.ttlSeconds) := by
  obtain ⟨key, value, seconds⟩ := arguments
  have onlyKey : Given ⟨key, "", 0⟩ (textFields 1 key) := by
    unfold textFields
    split
    · rename_i empty
      rw [String.isEmpty_iff.mp empty]
      exact .nil
    · exact .key .nil key
  have both : Given ⟨key, value, 0⟩ (textFields 1 key ++ textFields 2 value) := by
    rw [textFields.eq_def 2]
    split
    · rename_i empty
      rw [String.isEmpty_iff.mp empty, List.append_nil]
      exact onlyKey
    · exact .value onlyKey value
  show Given _ (textFields 1 key ++ textFields 2 value ++ secondsFields seconds)
  unfold secondsFields
  split
  · rename_i zero
    rw [zero, List.append_nil]
    exact both
  · exact .ttlSeconds both seconds

/-- The message without choices is one that carries the write, if its texts
are not beyond all size. -/
theorem spelled_encode (arguments : SetArguments)
    (keyFits : arguments.key.utf8ByteSize < UInt64.size)
    (valueFits : arguments.value.utf8ByteSize < UInt64.size) :
    arguments.Spelled arguments.encode := by
  refine ⟨_, given_fields arguments, ?_⟩
  have key := row_textField (by decide : 0 < 1 ∧ 1 < 536870912) keyFits
  have value := row_textField (by decide : 0 < 2 ∧ 2 < 536870912) valueFits
  rw [List.append_assoc]
  exact key.append (value.append (row_seconds arguments.ttlSeconds))

/-- A text's field is no shorter than the text, and the numbers before it take
up to ten bytes each. -/
theorem length_textField {number : Nat} (numbered : number < 536870912) {text : String}
    (fits : text.utf8ByteSize < UInt64.size) :
    text.utf8ByteSize ≤ (Reply.textField number text).length ∧
      (Reply.textField number text).length ≤ text.utf8ByteSize + 20 := by
  unfold Reply.textField
  split
  · rename_i empty
    rw [String.isEmpty_iff.mp empty]
    decide
  · have key := (Varint.spelled_write (key_lt numbered)).short
    have size := (Varint.spelled_write fits).short
    have content : (Bytes.ofString text).length = text.utf8ByteSize := rfl
    rw [Reply.bytesField, List.length_append, List.length_append, content]
    omega

/-- A message is no shorter than its texts, and not much longer. -/
theorem length_encode (arguments : SetArguments)
    (keyFits : arguments.key.utf8ByteSize < UInt64.size)
    (valueFits : arguments.value.utf8ByteSize < UInt64.size) :
    arguments.key.utf8ByteSize + arguments.value.utf8ByteSize ≤ arguments.encode.length ∧
      arguments.encode.length ≤ arguments.key.utf8ByteSize + arguments.value.utf8ByteSize + 60 := by
  have key := length_textField (by decide : 1 < 536870912) keyFits
  have value := length_textField (by decide : 2 < 536870912) valueFits
  have mark : (Varint.write 24).length ≤ 10 := (Varint.spelled_write (by decide)).short
  have seconds := (Varint.spelled_write arguments.ttlSeconds.toUInt64.toNat_lt).short
  rw [encode, List.length_append, List.length_append]
  split
  · rw [List.length_nil]
    omega
  · rw [List.length_append]
    omega

end Call.SetArguments

theorem ofPath?_path (method : Method) :
    Method.ofPath? (Http.pathOf (Bytes.ofString method.path)) = some method := by
  cases method <;> decide

/-- A message in one frame at a method's path is handled as the call that it makes. -/
theorem handleRaw_wrap {method : Method} {message : Bytes} {call : Call}
    (decoded : Call.decode? method message = some call)
    (fits : message.length ≤ Frame.maxMessageBytes) (store : Store) (now : Instant) :
    handleRaw store now method.path (Frame.wrap message) = handle store now call := by
  have read := Frame.read_wrap fits []
  rw [List.append_nil] at read
  have noOther (sound : Bytes → Bool) : Frame.faultIn sound [] = none := by
    rw [Frame.faultIn]
    rfl
  have made : readCall method (Frame.wrap message) = .ok call := by
    rw [readCall, read]
    simp only [decoded, noOther]
  rw [handleRaw, ofPath?_path]
  simp only [made]

/-- A message that is too large is refused, whatever call it makes. -/
theorem handleRaw_wrap_of_large {method : Method} {message : Bytes}
    (fits : message.length < UInt32.size) (large : Frame.maxMessageBytes < message.length)
    (store : Store) (now : Instant) :
    handleRaw store now method.path (Frame.wrap message) = refuse store .outOfRange := by
  have read := Frame.read_wrap_of_large fits large []
  rw [List.append_nil] at read
  have refused : readCall method (Frame.wrap message) = .error .outOfRange := by
    rw [readCall, read]
    rfl
  rw [handleRaw, ofPath?_path]
  simp only [refused]

end Rpc

end ExpiringStore
