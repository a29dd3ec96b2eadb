import ExpiringStore.Log.Event

/-!
# Steps of a run

A run is told as the list of what it does, in order. Its log is what the steps log.
-/
namespace ExpiringStore

/-- What a run does, step by step. -/
inductive Step where
  | createStore
  | log (event : Event)
  | bind (frontEnd : FrontEnd) (endpoint : Endpoint)
  | start (frontEnd : FrontEnd)
  | tellShutdown
  | join (frontEnd : FrontEnd)
  | stopStore
  deriving DecidableEq, Repr

namespace Step

def event? : Step → Option Event
  | .log event => some event
  | _ => none

def events (steps : List Step) : List Event := steps.filterMap event?

end Step

end ExpiringStore
