import ExpiringStore.Server.Step

/-!
# The end of serving

Serving ends when a shutdown is asked for or a front-end completes by itself. All
front-ends are then told to shut down and are joined as they complete. The first error
counts, whatever comes later.
-/
namespace ExpiringStore

/-- How serving comes to an end: whether a shutdown is asked for before any front-end completes, and
the front-ends in the order in which they complete, each with its result. -/
structure Ending where
  signalled : Bool
  joined : List (FrontEnd × Except ServerError Unit)

namespace Ending

/-- A shutdown on request, after which all front-ends complete without an error. -/
def onSignal (started : List FrontEnd) : Ending := ⟨true, started.map fun f => (f, .ok ())⟩

/-- Joining a front-end that has completed; an error is logged. -/
def joinSteps (frontEnd : FrontEnd) : Except ServerError Unit → List Step
  | .ok _ => [.join frontEnd]
  | .error e => [.join frontEnd, .log (.serverFailed e)]

/-- The result after one more front-end has been joined: an earlier error stands. -/
def combine (result next : Except ServerError Unit) : Except ServerError Unit :=
  match result with
  | .ok _ => next
  | .error e => .error e

/-- Joins front-ends in the order in which they complete. -/
def drain (result : Except ServerError Unit) :
    List (FrontEnd × Except ServerError Unit) → List Step × Except ServerError Unit
  | [] => ([], result)
  | (frontEnd, next) :: rest =>
    let (steps, result) := drain (combine result next) rest
    (joinSteps frontEnd next ++ steps, result)

/-- What happens from the moment that serving ends: all front-ends are told to
shut down and are joined. -/
def conclude (e : Ending) : List Step × Except ServerError Unit :=
  match e.signalled, e.joined with
  | false, (frontEnd, result) :: rest =>
    let (steps, final) := drain result rest
    (joinSteps frontEnd result ++ .tellShutdown :: steps, final)
  | _, joined =>
    let (steps, final) := drain (.ok ()) joined
    (.log .shuttingDown :: .tellShutdown :: steps, final)

end Ending

end ExpiringStore
