import ExpiringStore.CommandLine.Parser
import ExpiringStore.Log.Filter
import ExpiringStore.Server.Run

/-!
# The program

From arguments and an environment to an exit status and what is printed. Help and version are
printed as asked for, a faulty command line ends with status 2, a server that fails with status 1.
-/
namespace ExpiringStore

/-- How the program ended. -/
structure Exit where
  code : UInt32
  output : List String
  errorLine : String
  deriving DecidableEq, Repr

namespace Program

def filterVariable : String := "RUST_LOG"

def linesOf (text : String) : List String := (text.splitOn "\n").dropLast

def early : EarlyExit → Exit
  | .help text => ⟨0, linesOf text, ""⟩
  | .version text => ⟨0, linesOf text, ""⟩
  | .usage e => ⟨2, [], "error: " ++ e.message⟩

def shown (filter : LogFilter) (events : List Event) : List String :=
  (events.filter filter.passes).map Event.lineWithTarget

def run (args : List String) (env : Environment) (network : Network) (now : Instant)
    (ending : List FrontEnd → Ending) : Exit :=
  match CommandLine.parse args env with
  | .error e => early e
  | .ok config =>
    let filter := LogFilter.ofVariable (env.get? filterVariable)
    let report := Server.run config network now ending
    let events := Step.events report.steps
    match report.result with
    | .ok _ => ⟨0, shown filter (events ++ [.shutdownComplete]), ""⟩
    | .error e => ⟨1, shown filter events, "Error: " ++ e.message⟩

end Program

end ExpiringStore
