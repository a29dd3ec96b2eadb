import ExpiringStore.Server.Ending
import ExpiringStore.Server.Listeners
import ExpiringStore.Store.Basic

/-!
# Running a server

A run creates the store, binds the enabled front-ends, serves until the end, and stops the sweeper
whatever happened. What the world decides comes in from outside: the network says which endpoints
can be bound, and an `Ending` in which order the front-ends complete and with which results.
-/
namespace ExpiringStore

/-- A run: what was done, the store it left behind if it created one, and its result. -/
structure RunReport where
  steps : List Step
  store : Option Store
  result : Except ServerError Unit

namespace Server

def serve (listeners : Listeners) (ending : Ending) : List Step × Except ServerError Unit :=
  let (steps, result) := ending.conclude
  (listeners.start ++ steps, result)

/-- Binds and serves. -/
def bindAndServe (config : Config) (network : Network) (ending : List FrontEnd → Ending) :
    List Step × Except ServerError Unit :=
  match Listeners.bind config network with
  | (steps, .error e) => (steps, .error e)
  | (steps, .ok listeners) =>
    let (more, result) := serve listeners (ending listeners.started)
    (steps ++ more, result)

def run (config : Config) (network : Network) (now : Instant) (ending : List FrontEnd → Ending) :
    RunReport :=
  match config.validate with
  | .error e => ⟨[], none, .error e⟩
  | .ok _ =>
    let (store, created) := Store.create config.sweepInterval now
    let (steps, result) := bindAndServe config network ending
    let (store, stopped) := store.stop
    ⟨.createStore :: created.map .log ++ .log (.sweepInterval config.sweepIntervalMillis) ::
      steps ++ .stopStore :: stopped.map .log, some store, result⟩

end Server

end ExpiringStore
