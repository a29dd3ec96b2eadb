import ExpiringStore.Server.Ending
import ExpiringStore.Server.Listeners
import ExpiringStore.Store.Supervision

/-!
# A process among its surroundings

A run taken apart into the steps between which others may act. A shutdown may be asked for and a
front-end may complete at any time and with any result, clients change the table, and the sweep
loop goes on by itself. The process waits for the first two, for the front-ends that it has told to
shut down, and for the loop.
-/
namespace ExpiringStore

/-- What a process is launched with. `reflection` is what comes of building the service that
describes the gRPC interface, or the cause for which it cannot be built. -/
structure Launch where
  config : Config
  network : Network
  reflection : Except String Unit

/-- How far a process has come, with what it goes on with. -/
inductive Stage where
  | begun
  | bindingHttp
  | bindingGrpc (http : Option Endpoint)
  | startingGrpc (listeners : Listeners)
  | startingHttp (listeners : Listeners)
  | waiting
  | telling (result : Except ServerError Unit)
  | draining (result : Except ServerError Unit)
  | served (result : Except ServerError Unit)
  | stopping (result : Except ServerError Unit)
  | returned (result : Except ServerError Unit)

/-- A process: its store once there is one, the channel that tells the front-ends to shut down,
whether a shutdown has been asked for, the front-ends that run, those that have completed and are
not joined yet, how serving has ended as far as the process knows, and what it has done. -/
structure Process where
  stage : Stage
  store : Option Supervision
  shutdown : Watch Bool
  asked : Bool
  running : List FrontEnd
  completed : List (FrontEnd × Except ServerError Unit)
  ending : Ending
  steps : List Step

/-- Whether a move of the sweeper is its loop's or a client's, and not one of
who starts or stops it. -/
def Supervision.Move.isAside : Supervision.Move → Bool
  | .sweep _ _ | .notice _ | .serve _ => true
  | .start | .stop | .send _ | .join _ | .leave _ | .cancel _ | .drop => false

namespace Process

/-- What happens next. The process advances where it need not wait. It hears of a shutdown that has
been asked for or joins a front-end that has completed; where it can do either, both may happen. -/
inductive Move where
  | advance
  | ask
  | complete (frontEnd : FrontEnd) (result : Except ServerError Unit)
  | hear
  | join (place : Nat)
  | aside (move : Supervision.Move)

def fresh : Process where
  stage := .begun
  store := none
  shutdown := (Watch.create false).1
  asked := false
  running := []
  completed := []
  ending := ⟨false, []⟩
  steps := []

def create (launch : Launch) (p : Process) : Process :=
  match launch.config.validate with
  | .error e => { p with stage := .returned (.error e) }
  | .ok _ =>
    let store := (Supervision.new launch.config.sweepInterval Table.empty).start
    let interval := Step.log (.sweepInterval launch.config.sweepIntervalMillis)
    { p with stage := .bindingHttp, store := some store,
             steps := p.steps ++ (.createStore :: store.log.map .log ++ [interval]) }

/-- Binds one front-end while `bound` is listened on, and goes on to `next` if it can be bound. -/
def bind (launch : Launch) (p : Process) (bound : List Endpoint) (frontEnd : FrontEnd)
    (next : Option Endpoint → Stage) : Process :=
  match Listeners.bindOne launch.config launch.network bound frontEnd with
  | (steps, .error e) => { p with stage := .served (.error e), steps := p.steps ++ steps }
  | (steps, .ok endpoint) => { p with stage := next endpoint, steps := p.steps ++ steps }

/-- Binds HTTP. That there is something to serve is looked at once more. -/
def bindHttp (launch : Launch) (p : Process) : Process :=
  match launch.config.validate with
  | .error e => { p with stage := .served (.error e) }
  | .ok _ => p.bind launch [] .http .bindingGrpc

/-- Starts a front-end if it is bound. It listens for the shutdown from then on. -/
def start (p : Process) (listeners : Listeners) (frontEnd : FrontEnd) : Process :=
  match listeners.endpoint? frontEnd with
  | none => p
  | some _ =>
    { p with shutdown := p.shutdown.subscribe.1, running := p.running ++ [frontEnd],
             steps := p.steps ++ listeners.startOne frontEnd }

/-- Starts gRPC if it is bound, which needs the service that describes it. -/
def startGrpc (launch : Launch) (p : Process) (listeners : Listeners) : Process :=
  match listeners.grpc, launch.reflection with
  | some _, .error cause => { p with stage := .served (.error (.reflection cause)) }
  | _, _ => { p.start listeners .grpc with stage := .startingHttp listeners }

/-- Lets the process itself move its sweeper. What the sweeper reports of
that is among the steps. -/
def moveStore? (p : Process) (move : Supervision.Move) : Option Process :=
  match p.store with
  | none => none
  | some store =>
    (store.step move).map fun next =>
      { p with store := some next, steps := p.steps ++ (next.log.drop store.log.length).map .log }

/-- How far the stop of the store has come. No other one is ever called. -/
def stop? (p : Process) : Option StopPhase := p.store.bind fun store => store.stops[0]?

def stopOn? (p : Process) (result : Except ServerError Unit) : Option Process :=
  match p.stop? with
  | some (.locked _) => p.moveStore? (.send 0)
  | some (.joining _) => p.moveStore? (.join 0)
  | some (.leaving _) => p.moveStore? (.leave 0)
  | some .returned => some { p with stage := .returned result }
  | some .cancelled | none => none

/-- What the process does by itself, if it need not wait. -/
def advance? (launch : Launch) (p : Process) : Option Process :=
  match p.stage with
  | .begun => some (p.create launch)
  | .bindingHttp => some (p.bindHttp launch)
  | .bindingGrpc http =>
    some (p.bind launch http.toList .grpc fun grpc => .startingGrpc ⟨http, grpc⟩)
  | .startingGrpc listeners => some (p.startGrpc launch listeners)
  | .startingHttp listeners => some { p.start listeners .http with stage := .waiting }
  | .waiting => none
  | .telling result =>
    some { p with stage := .draining result, shutdown := p.shutdown.send true,
                  steps := p.steps ++ [.tellShutdown] }
  | .draining result =>
    if p.running = [] ∧ p.completed = [] then some { p with stage := .served result } else none
  | .served result =>
    let p : Process := { p with stage := .stopping result, steps := p.steps ++ [.stopStore] }
    p.moveStore? .stop
  | .stopping result => p.stopOn? result
  | .returned _ => none

/-- Ends the serving of a front-end, which listens for the shutdown no longer. -/
def complete? (p : Process) (frontEnd : FrontEnd) (result : Except ServerError Unit) :
    Option Process :=
  if frontEnd ∈ p.running then
    some { p with shutdown := p.shutdown.release, running := p.running.erase frontEnd,
                  completed := p.completed ++ [(frontEnd, result)] }
  else none

/-- Stops waiting for a shutdown that has been asked for. -/
def hear? (p : Process) : Option Process :=
  match p.stage, p.asked with
  | .waiting, true =>
    some { p with stage := .telling (.ok ()), ending := { p.ending with signalled := true },
                  steps := p.steps ++ [.log .shuttingDown] }
  | _, _ => none

/-- What joining a front-end with `next` leads to: it ends the wait, or it is one of
those that are drained. -/
def stageAfter? : Stage → Except ServerError Unit → Option Stage
  | .waiting, next => some (.telling next)
  | .draining result, next => some (.draining (Ending.combine result next))
  | _, _ => none

/-- Joins one of the front-ends that have completed, whichever it is. -/
def join? (p : Process) (place : Nat) : Option Process :=
  match p.completed[place]? with
  | none => none
  | some (frontEnd, result) =>
    (stageAfter? p.stage result).map fun stage =>
      { p with stage := stage, completed := p.completed.eraseIdx place,
               ending := { p.ending with joined := p.ending.joined ++ [(frontEnd, result)] },
               steps := p.steps ++ Ending.joinSteps frontEnd result }

/-- A move of the sweep loop or of a client. What the loop reports then stays in its store's log. -/
def aside? (p : Process) (move : Supervision.Move) : Option Process :=
  match p.store, move.isAside with
  | some store, true => (store.step move).map fun next => { p with store := some next }
  | _, _ => none

def step (launch : Launch) (p : Process) : Move → Option Process
  | .advance => p.advance? launch
  | .ask => some { p with asked := true }
  | .complete frontEnd result => p.complete? frontEnd result
  | .hear => p.hear?
  | .join place => p.join? place
  | .aside move => p.aside? move

def run (launch : Launch) (p : Process) (moves : List Move) : Option Process :=
  moves.foldlM (step launch) p

end Process

end ExpiringStore
