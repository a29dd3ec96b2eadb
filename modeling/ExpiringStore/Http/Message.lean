import ExpiringStore.Json.Basic

/-!
# HTTP requests and responses

As much of a message as the service looks at or decides. Methods are case-sensitive names.
-/
namespace ExpiringStore.Http

/-- A request method; those the service knows have their own constructor. -/
inductive Method where
  | get
  | head
  | put
  | delete
  | other (name : String)
  deriving DecidableEq, Repr

def Method.ofString (name : String) : Method :=
  if name = "GET" then .get
  else if name = "HEAD" then .head
  else if name = "PUT" then .put
  else if name = "DELETE" then .delete
  else .other name

/-- A request: its target is the text behind the method on the request line. -/
structure Request where
  method : Method
  target : String
  headers : List (String × String)
  body : Bytes
  deriving DecidableEq, Repr

/-- The kinds of body that a response may have. -/
inductive ContentType where
  | json
  | plainText
  deriving DecidableEq, Repr

def ContentType.name : ContentType → String
  | .json => "application/json"
  | .plainText => "text/plain; charset=utf-8"

/-- A response: its status and body, and the two headers that depend on the request. -/
structure Response where
  status : Nat
  contentType : Option ContentType
  allow : Option String
  body : Bytes
  deriving DecidableEq, Repr

namespace Response

def empty (status : Nat) : Response := ⟨status, none, none, []⟩

def json (status : Nat) (document : Json) : Response :=
  ⟨status, some .json, none, document.render⟩

def plain (status : Nat) (text : String) : Response :=
  ⟨status, some .plainText, none, Bytes.ofString text⟩

def methodNotAllowed (allow : String) : Response := ⟨405, none, some allow, []⟩

/-- The response to the same request made for its headers alone. -/
def withoutBody (r : Response) : Response := { r with body := [] }

end Response

end ExpiringStore.Http
