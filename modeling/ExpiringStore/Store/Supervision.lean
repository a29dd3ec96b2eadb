import ExpiringStore.Store.Basic
import ExpiringStore.Store.Watch

/-!
# A sweeper among its callers

The sweeper taken apart into the steps that may be mixed: starts, the sections of any number of
stops, and the iterations of the sweep loop. A stop changes the lifecycle under a lock, but signals
and waits outside it, so others come in between, and it may be given up while it waits. Two channels
connect the two sides: one that tells the loop to end, and one that closes when the loop is gone.
-/
namespace ExpiringStore

/-- A sweep loop that is running: its end of the shutdown channel, and whether it holds the
exit channel's sender. -/
structure SweepLoop where
  receiver : Receiver
  exitSender : Bool
  deriving DecidableEq, Repr

/-- How far a stop has come. -/
inductive StopPhase where
  | locked (handle : Option Nat)
  | joining (loop : Nat)
  | leaving (receiver : Receiver)
  | returned
  | cancelled
  deriving DecidableEq, Repr

namespace StopPhase

/-- Whether the stop has signalled. It does so before it first waits, so nothing
else can keep it from it. -/
def hasSent : StopPhase → Bool
  | .locked _ => false
  | .joining _ | .leaving _ | .returned | .cancelled => true

def isOver : StopPhase → Bool
  | .returned | .cancelled => true
  | .locked _ | .joining _ | .leaving _ => false

end StopPhase

/-- A sweeper, the loops that it has begun, and the stops that have been called, both in order
and the loops without those that have ended. `handle` and `exitSender` are what the lock
guards next to the state. -/
structure Supervision where
  interval : SweepInterval
  state : Lifecycle
  handle : Option Nat
  exitSender : Bool
  shutdown : Watch Bool
  exit : Watch Unit
  exitReceiver : Receiver
  loops : List (Option SweepLoop)
  stops : List StopPhase
  table : Table
  dropped : Bool
  log : List Event
  deriving DecidableEq, Repr

namespace Supervision

/-- What happens next. A loop whose shutdown branch is ready may still sweep; `serve` stands for
what the store's other callers make of the table. -/
inductive Move where
  | start
  | stop
  | send (call : Nat)
  | join (call : Nat)
  | leave (call : Nat)
  | cancel (call : Nat)
  | sweep (loop : Nat) (now : Instant)
  | notice (loop : Nat)
  | serve (table : Table)
  | drop
  deriving DecidableEq, Repr

/-- A sweeper that has not been started. Nobody listens on its shutdown channel yet. -/
def new (interval : SweepInterval) (table : Table) : Supervision :=
  let (exit, exitReceiver) := Watch.create ()
  { interval := interval, state := .created, handle := none, exitSender := true,
    shutdown := (Watch.create false).1.release, exit := exit, exitReceiver := exitReceiver,
    loops := [], stops := [], table := table, dropped := false, log := [] }

/-- Begins the sweep loop, unless the sweeper was started or stopped before. -/
def start (s : Supervision) : Supervision :=
  match s.state.start with
  | (state, true) =>
    let (shutdown, receiver) := s.shutdown.subscribe
    { s with state := state, handle := some s.loops.length, exitSender := false,
             shutdown := shutdown,
             loops := s.loops ++ [some ⟨receiver, s.exitSender⟩],
             log := s.log ++ [.sweeperStarted s.interval.span] }
  | (state, false) => { s with state := state }

/-- The lock section of a stop. The first one takes the loop's handle along; where no loop has been
begun, the exit channel's sender is given up here. -/
def lock (s : Supervision) : Supervision :=
  if s.state = .stopped then { s with stops := s.stops ++ [.locked none] }
  else
    { s with state := .stopped, handle := none, exitSender := false,
             exit := s.exit.dropSender s.exitSender, stops := s.stops ++ [.locked s.handle] }

def awaitExit (s : Supervision) (call : Nat) : Supervision :=
  let (exit, receiver) := s.exit.duplicate s.exitReceiver
  { s with exit := exit, stops := s.stops.set call (.leaving receiver) }

/-- Signals the loop to end, and lets the stop that took the handle wait for the loop first. -/
def send (s : Supervision) (call : Nat) (handle : Option Nat) : Supervision :=
  let signalled := { s with shutdown := s.shutdown.send true }
  match handle with
  | some loop => { signalled with stops := s.stops.set call (.joining loop) }
  | none => signalled.awaitExit call

/-- Reports that the loop has ended, and goes on to the exit channel. -/
def joined (s : Supervision) (call : Nat) : Supervision :=
  let reported : Supervision := { s with log := s.log ++ [.sweeperStopped] }
  reported.awaitExit call

def settle (s : Supervision) (call : Nat) (phase : StopPhase) : Supervision :=
  { s with exit := s.exit.release, stops := s.stops.set call phase }

def sweep (s : Supervision) (now : Instant) : Supervision :=
  let (table, removed) := s.table.sweep now
  { s with table := table, log := s.log ++ if removed = 0 then [] else [.swept removed] }

def endLoop (s : Supervision) (loop : Nat) (running : SweepLoop) : Supervision :=
  { s with shutdown := s.shutdown.release, exit := s.exit.dropSender running.exitSender,
           loops := s.loops.set loop none }

/-- The shutdown branch of a loop, if it is ready: the loop ends if it is told to or nobody is
left who could tell it. -/
def notice? (s : Supervision) (loop : Nat) (running : SweepLoop) : Option Supervision :=
  match s.shutdown.changed? running.receiver with
  | none => none
  | some (receiver, sent) =>
    if !sent || s.shutdown.value then some (s.endLoop loop running)
    else some { s with loops := s.loops.set loop (some { running with receiver := receiver }) }

/-- Gives up the sweeper: one more signal, and then its ends of both channels. -/
def drop (s : Supervision) : Supervision :=
  { s with handle := none, exitSender := false, shutdown := (s.shutdown.send true).dropSender true,
           exit := (s.exit.dropSender s.exitSender).release, dropped := true }

/-- Makes a move, if it can be made. A sweeper is only dropped when no stop is under way, and is not
started or stopped after that. -/
def step (s : Supervision) : Move → Option Supervision
  | .start => if s.dropped then none else some s.start
  | .stop => if s.dropped then none else some s.lock
  | .send call =>
    match s.stops[call]? with
    | some (.locked handle) => some (s.send call handle)
    | _ => none
  | .join call =>
    match s.stops[call]? with
    | some (.joining loop) =>
      if s.loops[loop]? = some none then some (s.joined call) else none
    | _ => none
  | .leave call =>
    match s.stops[call]? with
    | some (.leaving receiver) =>
      if (s.exit.changed? receiver).isSome then some (s.settle call .returned) else none
    | _ => none
  | .cancel call =>
    match s.stops[call]? with
    | some (.joining _) => some { s with stops := s.stops.set call .cancelled }
    | some (.leaving _) => some (s.settle call .cancelled)
    | _ => none
  | .sweep loop now =>
    match s.loops[loop]? with
    | some (some _) => some (s.sweep now)
    | _ => none
  | .notice loop =>
    match s.loops[loop]? with
    | some (some running) => s.notice? loop running
    | _ => none
  | .serve table => some { s with table := table }
  | .drop => if s.dropped || !s.stops.all StopPhase.isOver then none else some s.drop

def run (s : Supervision) (moves : List Move) : Option Supervision := moves.foldlM step s

def Running (s : Supervision) (loop : Nat) : Prop := ∃ running, s.loops[loop]? = some (some running)

end Supervision

end ExpiringStore
