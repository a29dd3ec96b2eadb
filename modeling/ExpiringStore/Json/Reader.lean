import ExpiringStore.Json.Lexer

/-!
# Reading JSON documents

The reader takes one token at a time and keeps what is open around it, so documents may nest to any
depth. A text is one document with blanks around it and nothing else.
-/
namespace ExpiringStore

/-- A container that a value is being read into, with what it holds so far in reverse. -/
inductive Context where
  | item (items : List Json)
  | member (members : List (Literal × Json)) (name : Literal)
  deriving Repr

/-- What has to come next, and the containers that are open around it, the innermost first. -/
inductive Reading where
  | value (around : List Context)
  | arrayStart (around : List Context)
  | objectStart (around : List Context)
  | memberName (members : List (Literal × Json)) (around : List Context)
  | memberColon (members : List (Literal × Json)) (name : Literal) (around : List Context)
  | afterItem (items : List Json) (around : List Context)
  | afterMember (members : List (Literal × Json)) (around : List Context)
  | done (document : Json)
  deriving Repr

namespace Reading

def deliver (value : Json) : List Context → Reading
  | [] => .done value
  | .item items :: around => .afterItem (value :: items) around
  | .member members name :: around => .afterMember ((name, value) :: members) around

def beginValue (around : List Context) : Token → Option Reading
  | .null => some (deliver .null around)
  | .bool b => some (deliver (.bool b) around)
  | .number text => some (deliver (.number text) around)
  | .string content => some (deliver (.string content) around)
  | .openBracket => some (.arrayStart around)
  | .openBrace => some (.objectStart around)
  | _ => none

def step (r : Reading) (t : Token) : Option Reading :=
  match r, t with
  | .value around, t => beginValue around t
  | .arrayStart around, .closeBracket => some (deliver (.array []) around)
  | .arrayStart around, t => beginValue (.item [] :: around) t
  | .objectStart around, .closeBrace => some (deliver (.object []) around)
  | .objectStart around, .string name => some (.memberColon [] name around)
  | .memberName members around, .string name => some (.memberColon members name around)
  | .memberColon members name around, .colon => some (.value (.member members name :: around))
  | .afterItem items around, .comma => some (.value (.item items :: around))
  | .afterItem items around, .closeBracket => some (deliver (.array items.reverse) around)
  | .afterMember members around, .comma => some (.memberName members around)
  | .afterMember members around, .closeBrace => some (deliver (.object members.reverse) around)
  | _, _ => none

def document? : Reading → Option Json
  | .done document => some document
  | _ => none

end Reading

def Json.ofTokens? (tokens : List Token) : Option Json :=
  (tokens.foldlM Reading.step (.value [])).bind Reading.document?

def Json.parse? (bytes : Bytes) : Option Json := (Token.scan bytes).bind Json.ofTokens?

end ExpiringStore
