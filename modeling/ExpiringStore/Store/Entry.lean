import ExpiringStore.Time

/-!
# Entries

A stored value together with the instant from which it no longer counts. An entry is never changed;
writing a key again replaces it.
-/
namespace ExpiringStore

/-- A value and its deadline; without a deadline it lasts for ever. -/
structure Entry where
  value : String
  deadline : Option Instant
  deriving DecidableEq, Repr

namespace Entry

/-- An entry that never expires. -/
def permanent (value : String) : Entry := ⟨value, none⟩

def expiringAt (value : String) (deadline : Instant) : Entry := ⟨value, some deadline⟩

/-- The deadline that a time to live gives at `now`. None and zero mean "never", and so does a span
that reaches past the last instant. -/
def deadlineFor (ttl : Option Duration) (now : Instant) : Option Instant :=
  match ttl with
  | none => none
  | some d => if d = Duration.zero then none else now.after? d

def withTtl (value : String) (ttl : Option Duration) (now : Instant) : Entry :=
  ⟨value, deadlineFor ttl now⟩

/-- From its deadline on, the deadline included, an entry is expired. -/
def expiredAt (e : Entry) (now : Instant) : Bool :=
  match e.deadline with
  | none => false
  | some deadline => deadline.atOrBefore now

end Entry

end ExpiringStore
