import ExpiringStore.CommandLine.Help

/-!
# Reading the command line

Arguments are read from left to right and the first fault counts. An option's value may stand
behind an equals sign, and is then checked at once, or in the next argument, and is then checked
when the next known option is met or the arguments end. Settings that no argument sets are
looked up in the environment.
-/
namespace ExpiringStore

/-- What is wrong with a command line or an environment. -/
inductive UsageError where
  | unknownArgument (argument : String)
  | missingValue (setting : Setting)
  | badValue (setting : Setting) (text : String) (error : ValueError)
  | badFlagVariable (setting : Setting) (text : String)
  | unwantedValue (option : String) (text : String)
  deriving DecidableEq, Repr

def UsageError.message : UsageError → String
  | .unknownArgument argument => "unexpected argument '" ++ argument ++ "' found"
  | .missingValue setting =>
    "a value is required for '" ++ setting.usage ++ "' but none was supplied"
  | .badValue setting text error =>
    "invalid value '" ++ text ++ "' for '" ++ setting.usage ++ "': " ++ error.message
  | .badFlagVariable setting text => "invalid value '" ++ text ++ "' for '" ++ setting.usage ++ "'"
  | .unwantedValue option text =>
    "unexpected value '" ++ text ++ "' for '" ++ option ++ "' found; no more were expected"

/-- What a command line asks for instead of a server, or what is wrong with it. -/
inductive EarlyExit where
  | help (text : String)
  | version (text : String)
  | usage (error : UsageError)
  deriving DecidableEq, Repr

namespace CommandLine

/-- An option that waits for its value, or whose value waits to be checked. -/
structure Pending where
  setting : Setting
  text : Option String
  deriving DecidableEq, Repr

/-- What the arguments so far have set. -/
structure Progress where
  settings : Settings
  pending : Option Pending
  deriving DecidableEq, Repr

def Progress.start : Progress := ⟨Settings.empty, none⟩

def store (settings : Settings) (setting : Setting) (text : String) : Except EarlyExit Settings :=
  match settings.setText setting text with
  | .ok settings => .ok settings
  | .error e => .error (.usage (.badValue setting text e))

def Progress.settle (p : Progress) : Except EarlyExit Settings :=
  match p.pending with
  | none => .ok p.settings
  | some ⟨setting, none⟩ => .error (.usage (.missingValue setting))
  | some ⟨setting, some text⟩ => store p.settings setting text

/-- An argument by its shape. -/
inductive Argument where
  | long (name : String) (value : Option String)
  | short (letter : Char)
  | plain (text : String)
  deriving DecidableEq, Repr

/-- The shape of an argument: two hyphens and a name with or without a value, a hyphen and letters
of which the first one counts, or anything else. -/
def Argument.ofString (argument : String) : Argument :=
  match argument.toList with
  | '-' :: '-' :: rest =>
    let name := String.ofList (rest.takeWhile (· != '='))
    match rest.dropWhile (· != '=') with
    | [] => .long name none
    | _ :: value => .long name (some (String.ofList value))
  | '-' :: letter :: _ => .short letter
  | _ => .plain argument

/-- The options that are answered at once. -/
inductive Query where
  | help
  | version
  deriving DecidableEq, Repr

def Query.ofName? (name : String) : Option Query :=
  if name = "help" then some .help else if name = "version" then some .version else none

def Query.ofLetter? (letter : Char) : Option Query :=
  if letter = 'h' then some .help else if letter = 'V' then some .version else none

def Query.answer (q : Query) (env : Environment) (long : Bool) : EarlyExit :=
  match q with
  | .help => .help (if long then Help.long env else Help.short env)
  | .version => .version Help.version

def ask (p : Progress) (answer : EarlyExit) : Except EarlyExit Progress :=
  match p.settle with
  | .error e => .error e
  | .ok _ => .error answer

def stepLong (env : Environment) (p : Progress) (name : String) (value : Option String) :
    Except EarlyExit Progress :=
  match Query.ofName? name, Setting.ofName? name, value with
  | some query, _, none => ask p (query.answer env true)
  | some _, _, some text => .error (.usage (.unwantedValue ("--" ++ name) text))
  | none, none, _ => .error (.usage (.unknownArgument ("--" ++ name)))
  | none, some setting, value =>
    if setting.isFlag then
      match value with
      | some text => .error (.usage (.unwantedValue setting.usage text))
      | none => p.settle.map fun settings => ⟨settings.setFlag setting true, none⟩
    else
      match p.settle, value with
      | .error e, _ => .error e
      | .ok settings, none => .ok ⟨settings, some ⟨setting, none⟩⟩
      | .ok settings, some text => (store settings setting text).map fun settings =>
        ⟨settings, none⟩

/-- Reads an argument that is no option: the value of an option that waits for one. -/
def stepPlain (p : Progress) (text : String) : Except EarlyExit Progress :=
  match p.pending with
  | some ⟨setting, none⟩ => .ok { p with pending := some ⟨setting, some text⟩ }
  | _ => .error (.usage (.unknownArgument text))

def step (env : Environment) (p : Progress) (argument : String) : Except EarlyExit Progress :=
  match Argument.ofString argument with
  | .long name value => stepLong env p name value
  | .short letter =>
    match Query.ofLetter? letter with
    | some query => ask p (query.answer env false)
    | none => .error (.usage (.unknownArgument (String.ofList ['-', letter])))
  | .plain text => stepPlain p text

/-- Reads all arguments. Two hyphens end the options, and behind them every
argument is one too many. -/
def readArguments (env : Environment) (p : Progress) : List String → Except EarlyExit Settings
  | [] => p.settle
  | ["--"] => p.settle
  | "--" :: extra :: _ => .error (.usage (.unknownArgument extra))
  | argument :: rest =>
    match step env p argument with
    | .error e => .error e
    | .ok p => readArguments env p rest

/-- Looks one setting up in the environment unless it is set already. A flag's variable has to
be `true` or `false`. -/
def readVariable (env : Environment) (settings : Settings) (setting : Setting) :
    Except EarlyExit Settings :=
  if settings.has setting then .ok settings
  else
    match env.get? setting.variableName with
    | none => .ok settings
    | some text =>
      if setting.isFlag then
        if text = "true" then .ok (settings.setFlag setting true)
        else if text = "false" then .ok (settings.setFlag setting false)
        else .error (.usage (.badFlagVariable setting text))
      else store settings setting text

/-- The configuration that arguments and an environment ask for. -/
def parse (args : List String) (env : Environment) : Except EarlyExit Config :=
  match readArguments env Progress.start args with
  | .error e => .error e
  | .ok settings => (Setting.all.foldlM (readVariable env) settings).map Settings.toConfig

end CommandLine

end ExpiringStore
