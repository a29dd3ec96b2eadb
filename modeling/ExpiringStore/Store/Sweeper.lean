import ExpiringStore.Log.Event

/-!
# The sweeper

A store's sweeper removes expired entries on a fixed schedule. It has a tick at every whole multiple
of its interval after its creation, and a timer that knows whole milliseconds wakes it at most once
however many ticks have passed. It is started once and stopped once, for good.
-/
namespace ExpiringStore

/-- A sweep interval: at least one millisecond. -/
structure SweepInterval where
  span : Duration
  atLeastMilli : nanosPerMilli ≤ span.toNanos
  deriving DecidableEq, Repr

namespace SweepInterval

def shortest : SweepInterval := ⟨Duration.ofMillis 1, by decide⟩

def standard : SweepInterval := ⟨Duration.ofSeconds 1, by decide⟩

/-- The wanted span, or the shortest interval where that is longer. -/
def clamp (wanted : Duration) : SweepInterval :=
  ⟨wanted.max shortest.span, by
    have h := shortest.atLeastMilli
    unfold Duration.max
    split <;> omega⟩

end SweepInterval

/-- The life of a sweeper, which only moves forward. -/
inductive Lifecycle where
  | created
  | running
  | stopped
  deriving DecidableEq, Repr

namespace Lifecycle

def name : Lifecycle → String
  | .created => "Created"
  | .running => "Running"
  | .stopped => "Stopped"

/-- The state after a start, and whether this start has to begin the sweep loop. -/
def start : Lifecycle → Lifecycle × Bool
  | .created => (.running, true)
  | state => (state, false)

/-- The state after a stop, and whether there is a sweep loop that this stop has to end. -/
def stop : Lifecycle → Lifecycle × Bool
  | .running => (.stopped, true)
  | _ => (.stopped, false)

end Lifecycle

/-- A sweeper: its interval, the instant its schedule counts from, and where it is in its life. -/
structure Sweeper where
  interval : SweepInterval
  created : Instant
  state : Lifecycle
  deriving DecidableEq, Repr

namespace Sweeper

def new (interval : SweepInterval) (now : Instant) : Sweeper := ⟨interval, now, .created⟩

/-- Begins the sweep loop unless it was begun or the sweeper stopped. -/
def start (s : Sweeper) : Sweeper × List Event :=
  let (state, begins) := s.state.start
  ({ s with state := state }, if begins then [.sweeperStarted s.interval.span] else [])

def stop (s : Sweeper) : Sweeper × List Event :=
  let (state, ends) := s.state.stop
  ({ s with state := state }, if ends then [.sweeperStopped] else [])

/-- Ends the sweep loop without a word: nobody is left who could wait for it. -/
def abandon (s : Sweeper) : Sweeper := { s with state := .stopped }

/-- The number of the latest tick at or before `moment`, which is below one if there is none. -/
def latestTick (s : Sweeper) (moment : Int) : Int :=
  (moment - s.created.toNanos) / s.interval.span.toNanos

/-- The moment of a tick. -/
def tickAt (s : Sweeper) (k : Int) : Int := s.created.toNanos + k * s.interval.span.toNanos

/-- Whether the timer wakes the sweep loop while the clock moves from `before` to `after`: some tick
is later than the whole milliseconds of the one and not later than those of the other. -/
def wakes (s : Sweeper) (before after : Instant) : Bool :=
  let k := s.latestTick after.floorMilli
  s.state == .running && decide (1 ≤ k) && decide (before.floorMilli < s.tickAt k)

end Sweeper

end ExpiringStore
