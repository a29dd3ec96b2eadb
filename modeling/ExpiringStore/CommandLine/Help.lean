import ExpiringStore.CommandLine.Setting

/-!
# Help texts

The long text gives each fact a line of its own; the short one puts a setting's facts behind its
summary. Both show what the environment sets.
-/
namespace ExpiringStore

/-- The variables of an environment; a later setting of a variable replaces an earlier one. -/
abbrev Environment := List (String × String)

def Environment.get? (env : Environment) (name : String) : Option String := env.reverse.lookup name

namespace Help

/-- Lines that follow a line break start below the summary. -/
def indent (text : String) : String :=
  String.ofList (text.toList.flatMap fun c =>
    if c = '\n' then '\n' :: List.replicate 10 ' ' else [c])

/-- A setting's variable with its value, and the value that holds where nothing is said. -/
def facts (env : Environment) (s : Setting) : List String :=
  let value := (env.get? s.variableName).getD ""
  ("[env: " ++ s.variableName ++ "=" ++ value ++ "]") ::
    match s.standardText? with
    | some text => ["[default: " ++ text ++ "]"]
    | none => []

def optionLine (s : Setting) : String := "      " ++ s.usage ++ "\n          "

def longEntry (env : Environment) (s : Setting) : String :=
  optionLine s ++ indent (s.summary ++ "\n\n" ++ "\n".intercalate (facts env s)) ++ "\n\n"

def shortEntry (env : Environment) (s : Setting) : String :=
  optionLine s ++ indent (s.summary ++ " " ++ " ".intercalate (facts env s)) ++ "\n"

/-- What stands between the description and the options. -/
def usageLines : String := "Usage: stashr [OPTIONS]\n\nOptions:\n"

def long (env : Environment) : String :=
  "In-memory key/value store with per-key TTL, served over HTTP and gRPC.\n\n" ++
  "Every flag can also be set through the environment variable listed in \x60--help\x60. " ++
  "A flag given more than once takes its last value.\n\n" ++ usageLines ++
  String.join (Setting.all.map (longEntry env)) ++
  "  -h, --help\n          Print help (see a summary with '-h')\n\n" ++
  "  -V, --version\n          Print version\n"

def short (env : Environment) : String :=
  "HTTP and gRPC front-ends for the stashr key/value store\n\n" ++ usageLines ++
  String.join (Setting.all.map (shortEntry env)) ++
  "  -h, --help\n          Print help (see more with '--help')\n" ++
  "  -V, --version\n          Print version\n"

def version : String := "stashr 0.1.0\n"

end Help

end ExpiringStore
