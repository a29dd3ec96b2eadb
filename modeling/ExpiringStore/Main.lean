import ExpiringStore.Program

/-!
# The executable

Runs the program with the process's arguments and environment on a machine whose network carries
nothing, where a shutdown is asked for as soon as the front-ends serve.
-/
open ExpiringStore

def programVariables : List String := Program.filterVariable :: Setting.all.map Setting.variableName

def readEnvironment : IO Environment :=
  programVariables.filterMapM fun name => do
    let value? ← IO.getEnv name
    return value?.map fun value => (name, value)

def main (args : List String) : IO UInt32 := do
  let env ← readEnvironment
  let exit := Program.run args env (Network.isolated []) Instant.epoch Ending.onSignal
  exit.output.forM IO.println
  unless exit.errorLine.isEmpty do
    IO.eprintln exit.errorLine
  return exit.code
