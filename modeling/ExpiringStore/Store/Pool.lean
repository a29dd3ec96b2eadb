import ExpiringStore.Store.Basic

/-!
# Handles to stores

Several stores may live on one clock, each reached through any number of handles. Handles are
numbered in order of creation and never reused. A store's sweeper ends with its last handle.
-/
namespace ExpiringStore

/-- Stores in order of creation, and for each handle the number of its store until it is dropped. -/
structure Pool where
  clock : Instant
  stores : List Store
  handles : List (Option Nat)
  deriving DecidableEq, Repr

namespace Pool

/-- A clock with no store on it. -/
def onClock (clock : Instant) : Pool := ⟨clock, [], []⟩

/-- The number of the store behind a handle, if the handle exists and was not dropped. -/
def storeNumber? (p : Pool) (handle : Nat) : Option Nat := (p.handles[handle]?).join

def store? (p : Pool) (handle : Nat) : Option Store :=
  (p.storeNumber? handle).bind fun i => p.stores[i]?

/-- A new store with a first handle to it, which is the answer. -/
def addStore (p : Pool) (interval : SweepInterval) : Pool × Nat × List Event :=
  let (store, events) := Store.create interval p.clock
  ({ p with stores := p.stores ++ [store], handles := p.handles ++ [some p.stores.length] },
    p.handles.length, events)

def clone? (p : Pool) (handle : Nat) : Option (Pool × Nat) :=
  (p.storeNumber? handle).map fun i =>
    ({ p with handles := p.handles ++ [some i] }, p.handles.length)

def withStore? {α : Type} (p : Pool) (handle : Nat) (operation : Store → Store × α) :
    Option (Pool × α) :=
  match p.storeNumber? handle with
  | none => none
  | some i =>
    match p.stores[i]? with
    | none => none
    | some store =>
      let (store, answer) := operation store
      some ({ p with stores := p.stores.set i store }, answer)

/-- Gives up a handle. The sweeper of a store that nobody can reach any more ends. -/
def drop (p : Pool) (handle : Nat) : Pool :=
  match p.storeNumber? handle with
  | none => p
  | some i =>
    let handles := p.handles.set handle none
    let stores :=
      if handles.contains (some i) then p.stores
      else p.stores.modify i fun store => { store with sweeper := store.sweeper.abandon }
    { p with handles := handles, stores := stores }

/-- Moves the clock, which stays at the last instant once it is there, and gives every sweeper that
has a tick on the way one sweep at the new reading. -/
def advance (p : Pool) (span : Duration) : Pool × List Event :=
  let after := (p.clock.after? span).getD Instant.last
  let passed := p.stores.map fun store => store.pass p.clock after
  ({ p with clock := after, stores := passed.map Prod.fst }, passed.flatMap Prod.snd)

end Pool

end ExpiringStore
