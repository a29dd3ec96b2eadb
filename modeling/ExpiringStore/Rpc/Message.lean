import ExpiringStore.Limits
import ExpiringStore.Wire.Field

/-!
# Remote calls

The four calls of the service and their replies, and how both are written as messages. A field left
out has its zero value; of a field given more than once the last one counts; fields that a message
does not have are skipped.
-/
namespace ExpiringStore.Rpc

/-- The calls of the service by name. -/
inductive Method where
  | get
  | set
  | delete
  | list
  deriving DecidableEq, Repr

inductive Call where
  | get (key : String)
  | set (key : String) (value : String) (ttlSeconds : Int64)
  | delete (key : String)
  | list
  deriving DecidableEq, Repr

inductive Reply where
  | value (value : String) (found : Bool)
  | written
  | deleted (wasLive : Bool)
  | keys (listed : List String)
  deriving DecidableEq, Repr

namespace Method

def name : Method → String
  | .get => "Get"
  | .set => "Set"
  | .delete => "Delete"
  | .list => "List"

def serviceName : String := "kvstore.KVStore"

def path (m : Method) : String := "/" ++ serviceName ++ "/" ++ m.name

def ofPath? (path : Bytes) : Option Method :=
  [Method.get, .set, .delete, .list].find? fun m => Bytes.ofString m.path == path

end Method

namespace Call

def key? : Call → Option String
  | .get key | .set key _ _ | .delete key => some key
  | .list => none

def text? : Payload → Option String
  | .bytes content => content.toString?
  | _ => none

/-- The signed 64-bit integer whose two's complement a payload is. -/
def int64? : Payload → Option Int64
  | .varint value => some value.toUInt64.toInt64
  | _ => none

/-- Takes one field of a message that names a key into account. -/
def addKeyField (key : String) (field : Field) : Option String :=
  if field.number = 1 then text? field.payload else some key

structure SetArguments where
  key : String
  value : String
  ttlSeconds : Int64
  deriving DecidableEq, Repr

def addSetField (arguments : SetArguments) (field : Field) : Option SetArguments :=
  match field.number with
  | 1 => (text? field.payload).map fun key => { arguments with key := key }
  | 2 => (text? field.payload).map fun value => { arguments with value := value }
  | 3 => (int64? field.payload).map fun n => { arguments with ttlSeconds := n }
  | _ => some arguments

def decode? (method : Method) (message : Bytes) : Option Call :=
  match Field.parse? message with
  | none => none
  | some fields =>
    match method with
    | .get => (fields.foldlM addKeyField "").map .get
    | .set => (fields.foldlM addSetField ⟨"", "", 0⟩).map fun a => .set a.key a.value a.ttlSeconds
    | .delete => (fields.foldlM addKeyField "").map .delete
    | .list => some .list

end Call

namespace Reply

def bytesField (number : Nat) (content : Bytes) : Bytes :=
  Varint.write (8 * number + 2) ++ Varint.write content.length ++ content

/-- A text field, left out if the text is empty. -/
def textField (number : Nat) (text : String) : Bytes :=
  if text.isEmpty then [] else bytesField number (Bytes.ofString text)

/-- A truth value, left out if it is false. -/
def boolField (number : Nat) (b : Bool) : Bytes :=
  if b then Varint.write (8 * number) ++ [1] else []

def encode : Reply → Bytes
  | .value text found => textField 1 text ++ boolField 2 found
  | .written => []
  | .deleted wasLive => boolField 1 wasLive
  | .keys listed => listed.flatMap fun key => bytesField 1 (Bytes.ofString key)

end Reply

end ExpiringStore.Rpc
