import ExpiringStore.Rpc.Message
import ExpiringStore.Wire.Spelling

/-!
# Calls as clients write them

Which messages make a call: its arguments in numbered fields, in any order, those with their zero
value present or not, and any of them more than once, in which case the last one is meant. Between
them there may be fields that the call does not have.
-/
namespace ExpiringStore.Rpc.Call

namespace SetArguments

/-- What a row of fields gives, from its first field to its last. -/
inductive Given : SetArguments → List Field → Prop
  | nil : Given ⟨"", "", 0⟩ []
  | key {arguments : SetArguments} {fields : List Field} (earlier : Given arguments fields)
    (text : String) :
    Given { arguments with key := text } (fields ++ [⟨1, .bytes (Bytes.ofString text)⟩])
  | value {arguments : SetArguments} {fields : List Field} (earlier : Given arguments fields)
    (text : String) :
    Given { arguments with value := text } (fields ++ [⟨2, .bytes (Bytes.ofString text)⟩])
  | ttlSeconds {arguments : SetArguments} {fields : List Field} (earlier : Given arguments fields)
    (seconds : Int64) :
    Given { arguments with ttlSeconds := seconds } (fields ++ [⟨3, .varint seconds.toUInt64.toNat⟩])
  | other {arguments : SetArguments} {fields : List Field} (earlier : Given arguments fields)
    {field : Field} (unknown : 3 < field.number) : Given arguments (fields ++ [field])

def Spelled (arguments : SetArguments) (message : Bytes) : Prop :=
  ∃ fields, Given arguments fields ∧ Field.Row fields message

/-- The message of a write without choices: fields in order, once, and none for a zero value. -/
def encode (arguments : SetArguments) : Bytes :=
  Reply.textField 1 arguments.key ++ (Reply.textField 2 arguments.value ++
    if arguments.ttlSeconds = 0 then []
    else Varint.write 24 ++ Varint.write arguments.ttlSeconds.toUInt64.toNat)

end SetArguments

/-- The key that a row of fields gives to a call that has no other argument. -/
inductive KeyGiven : String → List Field → Prop
  | nil : KeyGiven "" []
  | key {replaced : String} {fields : List Field} (earlier : KeyGiven replaced fields)
    (text : String) : KeyGiven text (fields ++ [⟨1, .bytes (Bytes.ofString text)⟩])
  | other {key : String} {fields : List Field} (earlier : KeyGiven key fields) {field : Field}
    (unknown : 1 < field.number) : KeyGiven key (fields ++ [field])

def method : Call → Method
  | .get _ => .get
  | .set _ _ _ => .set
  | .delete _ => .delete
  | .list => .list

def Spelled (call : Call) (message : Bytes) : Prop :=
  match call with
  | .get key | .delete key => ∃ fields, KeyGiven key fields ∧ Field.Row fields message
  | .set key value ttlSeconds => SetArguments.Spelled ⟨key, value, ttlSeconds⟩ message
  | .list => ∃ fields, Field.Row fields message

end ExpiringStore.Rpc.Call
