/-!
# Watch channels

A channel that keeps only the latest value. Each receiver remembers how far it has seen; a value
that is sent while nobody listens is not kept, and a receiver that waits for a change waits until
there is a value that it has not seen or the sender is gone.
-/
namespace ExpiringStore

/-- The latest value, how many were kept before it, how many listen, and
whether the sender is gone. -/
structure Watch (α : Type) where
  value : α
  version : Nat
  receivers : Nat
  closed : Bool
  deriving DecidableEq, Repr

/-- An end that listens, by the last version that it has seen. -/
structure Receiver where
  seen : Nat
  deriving DecidableEq, Repr

namespace Watch

variable {α : Type}

def create (value : α) : Watch α × Receiver := (⟨value, 0, 1, false⟩, ⟨0⟩)

/-- One more receiver, for which the current value counts as seen. -/
def subscribe (w : Watch α) : Watch α × Receiver :=
  ({ w with receivers := w.receivers + 1 }, ⟨w.version⟩)

def duplicate (w : Watch α) (r : Receiver) : Watch α × Receiver :=
  ({ w with receivers := w.receivers + 1 }, r)

def release (w : Watch α) : Watch α := { w with receivers := w.receivers - 1 }

def send (w : Watch α) (value : α) : Watch α :=
  if w.receivers = 0 then w else { w with value := value, version := w.version + 1 }

/-- Gives up a place where the sender may have been held. -/
def dropSender (w : Watch α) (held : Bool) : Watch α := { w with closed := w.closed || held }

/-- What a receiver that waits for a change is told, if it does not have to go on waiting: whether
there is a value that it had not seen, which it has seen now, or else the sender is gone. -/
def changed? (w : Watch α) (r : Receiver) : Option (Receiver × Bool) :=
  if r.seen ≠ w.version then some (⟨w.version⟩, true)
  else if w.closed then some (r, false)
  else none

end Watch

end ExpiringStore
