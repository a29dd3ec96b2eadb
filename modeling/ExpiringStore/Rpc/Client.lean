import ExpiringStore.Rpc.Message

/-!
# Replies as clients read them

How the message of a reply is read by the rules by which calls are: a field left out has its
zero value, the last one of a field counts, and other fields are skipped. Only keys are
listed in one field each.
-/
namespace ExpiringStore.Rpc

def Reply.method : Reply → Method
  | .value _ _ => .get
  | .written => .set
  | .deleted _ => .delete
  | .keys _ => .list

namespace Reply

def texts : Reply → List String
  | .value text _ => [text]
  | .written | .deleted _ => []
  | .keys listed => listed

/-- The truth value that a payload is: any number but zero is true. -/
def bool? : Payload → Option Bool
  | .varint n => some (n != 0)
  | _ => none

structure Found where
  value : String
  found : Bool
  deriving DecidableEq, Repr

def addFoundField (reply : Found) (field : Field) : Option Found :=
  match field.number with
  | 1 => (Call.text? field.payload).map fun value => { reply with value := value }
  | 2 => (bool? field.payload).map fun found => { reply with found := found }
  | _ => some reply

def addDeletedField (deleted : Bool) (field : Field) : Option Bool :=
  if field.number = 1 then bool? field.payload else some deleted

def addKeysField (keys : List String) (field : Field) : Option (List String) :=
  if field.number = 1 then (Call.text? field.payload).map fun key => keys ++ [key] else some keys

def decode? (method : Method) (message : Bytes) : Option Reply :=
  match Field.parse? message with
  | none => none
  | some fields =>
    match method with
    | .get => (fields.foldlM addFoundField ⟨"", false⟩).map fun reply =>
      .value reply.value reply.found
    | .set => some .written
    | .delete => (fields.foldlM addDeletedField false).map .deleted
    | .list => (fields.foldlM addKeysField []).map .keys

end Reply

end ExpiringStore.Rpc
