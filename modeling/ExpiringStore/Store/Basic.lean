import ExpiringStore.Store.Sweeper
import ExpiringStore.Store.Table

/-!
# The store

A table of entries and the sweeper that looks after it. Every operation takes the clock reading at
which it is made. Reading a key removes it if it has expired, and so does deleting it.
-/
namespace ExpiringStore

/-- A table and its sweeper. -/
structure Store where
  table : Table
  sweeper : Sweeper
  deriving DecidableEq, Repr

/-- Why a store cannot be created. -/
inductive CreateError where
  | noRuntime
  deriving DecidableEq, Repr

/-- The text that a program without a runtime stops with. -/
def CreateError.message : CreateError → String
  | .noRuntime =>
    "stashr_core::Store requires a Tokio runtime. " ++
      "Create it from within a #[tokio::main] or #[tokio::test] context, " ++
      "or from code running on a Tokio runtime."

namespace Store

def create (interval : SweepInterval) (now : Instant) : Store × List Event :=
  let (sweeper, events) := (Sweeper.new interval now).start
  (⟨Table.empty, sweeper⟩, events)

/-- A store, if there is a runtime that its sweeper can run on. -/
def createOn (runtime : Bool) (interval : SweepInterval) (now : Instant) :
    Except CreateError (Store × List Event) :=
  if runtime then .ok (create interval now) else .error .noRuntime

/-- The value under `key` unless it has expired, in which case the entry is removed. -/
def get (s : Store) (key : String) (now : Instant) : Store × Option String :=
  match s.table.lookup key now with
  | .missing => (s, none)
  | .live value => (s, some value)
  | .expired => ({ s with table := s.table.evictExpired key now }, none)

/-- Puts `value` under `key` for `ttl`, in place of what was there. -/
def set (s : Store) (key value : String) (ttl : Option Duration) (now : Instant) : Store :=
  { s with table := s.table.insert key (Entry.withTtl value ttl now) }

def delete (s : Store) (key : String) (now : Instant) : Store × Bool :=
  match s.table.remove key with
  | (table, none) => ({ s with table := table }, false)
  | (table, some entry) => ({ s with table := table }, !entry.expiredAt now)

def list (s : Store) (now : Instant) : List String := s.table.liveKeys now

def sweep (s : Store) (now : Instant) : Store × Nat :=
  let (table, removed) := s.table.sweep now
  ({ s with table := table }, removed)

/-- The number of entries, expired ones included. -/
def size (s : Store) : Nat := s.table.size

/-- Whether there is no entry, not even an expired one. -/
def isEmpty (s : Store) : Bool := s.table.entries.isEmpty

/-- Stops the sweeper. The store goes on to serve. -/
def stop (s : Store) : Store × List Event :=
  let (sweeper, events) := s.sweeper.stop
  ({ s with sweeper := sweeper }, events)

/-- What the sweep loop does when the timer wakes it: one sweep, reported if
it removed something. -/
def backgroundSweep (s : Store) (now : Instant) : Store × List Event :=
  let (swept, removed) := s.sweep now
  (swept, if removed = 0 then [] else [.swept removed])

/-- What the clock's move from `before` to `after` brings about. -/
def pass (s : Store) (before after : Instant) : Store × List Event :=
  if s.sweeper.wakes before after then s.backgroundSweep after else (s, [])

end Store

end ExpiringStore
