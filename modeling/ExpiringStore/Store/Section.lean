import ExpiringStore.Store.Session

/-!
# Calls in sections

A call as it is made among others: a row of sections, each with the table's lock held once or the
clock read once. Between two sections of a call any others may run and the clock may move on, so a
reading may be old by the time it is used.
-/
namespace ExpiringStore

/-- A call that works on a table. A background sweep is made in the same way as an explicit one. -/
inductive TableCall where
  | get (key : String)
  | set (key value : String) (ttl : Option Duration)
  | delete (key : String)
  | list
  | sweep
  deriving DecidableEq, Repr

/-- The section that a caller enters next, with what its call has found out so far. -/
inductive Phase where
  | idle
  | getReading (key : String)
  | getLookup (key : String) (reading : Instant)
  | getEviction (key : String)
  | setReading (key value : String) (ttl : Option Duration)
  | setInsertion (key : String) (entry : Entry)
  | deleteRemoval (key : String)
  | deleteReading (removed : Entry)
  | listSnapshot
  | sweepReading
  | sweepRetention (reading : Instant)
  | answered (answer : Answer)
  deriving DecidableEq, Repr

namespace TableCall

def operation : TableCall → Operation
  | .get key => .get key
  | .set key value ttl => .set key value ttl
  | .delete key => .delete key
  | .list => .list
  | .sweep => .sweep

def phase : TableCall → Phase
  | .get key => .getReading key
  | .set key value ttl => .setReading key value ttl
  | .delete key => .deleteRemoval key
  | .list => .listSnapshot
  | .sweep => .sweepReading

end TableCall

namespace Phase

def free : Phase → Bool
  | .idle | .answered _ => true
  | _ => false

/-- Runs one section while the clock stands at `now`: the table it leaves and what comes next. -/
def run (now : Instant) (t : Table) : Phase → Option (Table × Phase)
  | .idle | .answered _ => none
  | .getReading key => some (t, .getLookup key now)
  | .getLookup key reading =>
    match t.lookup key reading with
    | .missing => some (t, .answered (.value none))
    | .live value => some (t, .answered (.value (some value)))
    | .expired => some (t, .getEviction key)
  | .getEviction key => some (t.evictExpired key now, .answered (.value none))
  | .setReading key value ttl => some (t, .setInsertion key (Entry.withTtl value ttl now))
  | .setInsertion key entry => some (t.insert key entry, .answered .done)
  | .deleteRemoval key =>
    match t.remove key with
    | (after, none) => some (after, .answered (.deleted false))
    | (after, some entry) => some (after, .deleteReading entry)
  | .deleteReading removed => some (t, .answered (.deleted (!removed.expiredAt now)))
  | .listSnapshot => some (t, .answered (.keys (t.liveKeys now)))
  | .sweepReading => some (t, .sweepRetention now)
  | .sweepRetention reading =>
    let (after, removed) := t.sweep reading
    some (after, .answered (.removed removed))

end Phase

/-- A table that callers share, and where each of them is. There is no bound on
how many are in a call. -/
structure Shared where
  clock : Instant
  table : Table
  callers : Nat → Phase

/-- What happens next: the clock moves on, a caller makes a call, or one goes
through its next section. -/
inductive Turn where
  | tick (reading : Instant)
  | enter (caller : Nat) (call : TableCall)
  | proceed (caller : Nat)
  deriving DecidableEq, Repr

def Turn.caller? : Turn → Option Nat
  | .tick _ => none
  | .enter caller _ | .proceed caller => some caller

namespace Shared

def quiet (clock : Instant) (table : Table) : Shared := ⟨clock, table, fun _ => .idle⟩

def place (s : Shared) (caller : Nat) (phase : Phase) : Shared :=
  { s with callers := fun other => if other = caller then phase else s.callers other }

/-- Takes a turn, if it can be taken. The clock never goes back, and a caller
makes one call at a time. -/
def step (s : Shared) : Turn → Option Shared
  | .tick reading => if s.clock.atOrBefore reading then some { s with clock := reading } else none
  | .enter caller call =>
    if (s.callers caller).free then some (s.place caller call.phase) else none
  | .proceed caller =>
    ((s.callers caller).run s.clock s.table).map fun (table, phase) =>
      { s with table := table }.place caller phase

def run (s : Shared) (turns : List Turn) : Option Shared := turns.foldlM step s

end Shared

end ExpiringStore
