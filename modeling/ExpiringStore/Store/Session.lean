import ExpiringStore.Store.Pool

/-!
# Sessions

What clients do with the stores of a pool, one step after the other: operations through handles, new
stores and handles, handles given up, and time that passes. A step through a handle that does not
exist, or no longer, changes nothing and has no answer.
-/
namespace ExpiringStore

/-- What a client asks of a store. -/
inductive Operation where
  | set (key value : String) (ttl : Option Duration)
  | get (key : String)
  | delete (key : String)
  | list
  | sweep
  | isEmpty
  | state
  | stop
  deriving DecidableEq, Repr

inductive Answer where
  | done
  | value (found : Option String)
  | deleted (wasLive : Bool)
  | keys (listed : List String)
  | removed (count : Nat)
  | empty (holdsNothing : Bool)
  | state (now : Lifecycle)
  | handle (number : Nat)
  deriving DecidableEq, Repr

namespace Store

def perform (s : Store) (now : Instant) : Operation → Store × Answer × List Event
  | .set key value ttl => (s.set key value ttl now, .done, [])
  | .get key =>
    let (store, found) := s.get key now
    (store, .value found, [])
  | .delete key =>
    let (store, wasLive) := s.delete key now
    (store, .deleted wasLive, [])
  | .list => (s, .keys (s.list now), [])
  | .sweep =>
    let (store, removed) := s.sweep now
    (store, .removed removed, [])
  | .isEmpty => (s, .empty s.isEmpty, [])
  | .state => (s, .state s.sweeper.state, [])
  | .stop =>
    let (store, events) := s.stop
    (store, .state store.sweeper.state, events)

end Store

inductive SessionStep where
  | call (handle : Nat) (operation : Operation)
  | create (interval : SweepInterval)
  | clone (handle : Nat)
  | drop (handle : Nat)
  | advance (span : Duration)
  deriving DecidableEq, Repr

namespace Pool

/-- Calls the store behind a handle at the pool's clock reading. -/
def call (p : Pool) (handle : Nat) (operation : Operation) : Pool × Option Answer × List Event :=
  match p.withStore? handle fun store => store.perform p.clock operation with
  | some (after, answer, events) => (after, some answer, events)
  | none => (p, none, [])

def step (p : Pool) : SessionStep → Pool × Option Answer × List Event
  | .call handle operation => p.call handle operation
  | .create interval =>
    let (after, handle, events) := p.addStore interval
    (after, some (.handle handle), events)
  | .clone handle =>
    match p.clone? handle with
    | some (after, number) => (after, some (.handle number), [])
    | none => (p, none, [])
  | .drop handle => (p.drop handle, some .done, [])
  | .advance span =>
    let (after, events) := p.advance span
    (after, some .done, events)

def after (p : Pool) (steps : List SessionStep) : Pool :=
  steps.foldl (fun p step => (p.step step).1) p

end Pool

end ExpiringStore
