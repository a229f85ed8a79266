import HealthWatch.FileFeed
import HealthWatch.Settings.Loading

/-!
# The command line

What the program makes of its arguments. It loads settings from a file; asked to validate, it sums
them up and ends, and otherwise it begins with the endpoints that the settings name.

Files are read through an argument, so the command line is a function of its arguments and of what
is read. Arguments are looked at one by one, and the first fault or the first call for help or for
the version decides.
-/

set_option autoImplicit false

namespace HealthWatch.CommandLine

/-! ## Arguments -/

/-- The options that take a value. -/
inductive ValueOption where
  | config
  | logLevel
deriving Repr, DecidableEq

/-- A fault in the arguments. -/
inductive UsageError where
  | unexpectedArgument (argument : String)
  | unexpectedValue (name : String)
  | missingValue (option : ValueOption)
  | repeated (name : String)
  | missingConfig
deriving Repr, DecidableEq

/-- The options given so far. -/
structure Options where
  config : Option String := none
  logLevel : Option String := none
  validate : Bool := false
deriving Repr

/-- What is asked of the program. Asked for help or for its version, it does nothing else. -/
inductive Request where
  | help
  | version
  | load (config : String) (validate : Bool)
deriving Repr

namespace ValueOption

/-- An option and its value as they are written in help. -/
def usage : ValueOption → String
  | config => "--config <FILE>"
  | logLevel => "--log-level <LEVEL>"

/-- The option with a long name. -/
def ofLong? (name : String) : Option ValueOption :=
  if name = "config" then some config else if name = "log-level" then some logLevel else none

/-- The option with a letter. -/
def ofLetter? (letter : Char) : Option ValueOption :=
  if letter = 'c' then some config else if letter = 'l' then some logLevel else none

end ValueOption

/-- The wording of a fault in the arguments. -/
def UsageError.message : UsageError → String
  | unexpectedArgument argument => "unexpected argument '" ++ argument ++ "' found"
  | unexpectedValue name => "unexpected value for '" ++ name ++ "' found"
  | missingValue option => "a value is required for '" ++ option.usage ++ "' but none was supplied"
  | repeated name => "the argument '" ++ name ++ "' cannot be used multiple times"
  | missingConfig =>
    "the following required arguments were not provided:\n  " ++ ValueOption.config.usage

/-- Gives an option its value. No option is given twice, and a file needs a name. -/
def Options.set (o : Options) (option : ValueOption) (value : String) :
    Except UsageError Options :=
  match option with
  | .config =>
    if o.config.isSome then .error (.repeated option.usage)
    else if value.isEmpty then .error (.missingValue option)
    else .ok { o with config := some value }
  | .logLevel =>
    if o.logLevel.isSome then .error (.repeated option.usage)
    else .ok { o with logLevel := some value }

/-- Cuts a text at its first equals sign. -/
def cutAtEquals (cs : List Char) : List Char × Option (List Char) :=
  let name := cs.takeWhile (· != '=')
  match cs.dropWhile (· != '=') with
  | [] => (name, none)
  | _ :: value => (name, some value)

/-- Does an argument look like an option? A lone hyphen does not. -/
def looksLikeOption : List Char → Bool
  | '-' :: _ :: _ => true
  | _ => false

/-- Reads arguments. The value of an option stands behind an equals sign, behind the letter, or in
the next argument. Behind two hyphens no argument is expected. -/
def readArguments (o : Options) : List String → Except UsageError Request
  | [] =>
    match o.config with
    | none => .error .missingConfig
    | some config => .ok (.load config o.validate)
  | argument :: rest =>
    let refused : Except UsageError Request := .error (.unexpectedArgument argument)
    match argument.toList with
    | ['-', '-'] =>
      match rest with
      | [] => readArguments o []
      | extra :: _ => .error (.unexpectedArgument extra)
    | '-' :: '-' :: cs =>
      let (name, value) := cutAtEquals cs
      let name := String.ofList name
      match ValueOption.ofLong? name, value, rest with
      | some option, some value, rest => do
        readArguments (← o.set option (String.ofList value)) rest
      | some option, none, next :: rest => do
        if looksLikeOption next.toList then .error (.missingValue option)
        else readArguments (← o.set option next) rest
      | some option, none, [] => .error (.missingValue option)
      | none, value, rest =>
        if name = "validate" || name = "help" || name = "version" then
          if value.isSome then .error (.unexpectedValue name)
          else if name = "help" then .ok .help
          else if name = "version" then .ok .version
          else if o.validate then .error (.repeated "--validate")
          else readArguments { o with validate := true } rest
        else refused
    | '-' :: letter :: cs =>
      match ValueOption.ofLetter? letter, cs, rest with
      | some option, '=' :: value, rest => do
        readArguments (← o.set option (String.ofList value)) rest
      | some option, value@(_ :: _), rest => do
        readArguments (← o.set option (String.ofList value)) rest
      | some option, [], next :: rest => do
        if looksLikeOption next.toList then .error (.missingValue option)
        else readArguments (← o.set option next) rest
      | some option, [], [] => .error (.missingValue option)
      | none, _, _ =>
        if letter = 'h' then .ok .help else if letter = 'V' then .ok .version else refused
    | _ => refused

/-! ## Texts -/

/-- The name under which the program speaks of itself. -/
def programName : String :=
  "endpoint-health"

/-- What the program tells of its version. -/
def versionText : String :=
  programName ++ " 0.1.0\n"

/-- The line on how the program is used. -/
def usageLine : String :=
  "Usage: " ++ programName ++ " [OPTIONS] --config <FILE>\n"

/-- What the program tells of its use. -/
def helpText : String :=
  "Health-checked endpoint groups for client-side load balancing\n\n" ++ usageLine ++
    "\nOptions:\n" ++
    "  -c, --config <FILE>      Path to the configuration file\n" ++
    "  -l, --log-level <LEVEL>  Override log level (trace, debug, info, warn, error)\n" ++
    "      --validate           Validate configuration and exit\n" ++
    "  -h, --help               Print help\n" ++
    "  -V, --version            Print version\n"

/-- Which endpoints are checked, in words. -/
def strategySummary : StrategySettings → String
  | .all => "all endpoints"
  | .bounded (some count) _ => "at most " ++ toString count.toNat ++ " endpoints"
  | .bounded none (some ratio) =>
    "at most " ++ Decimal.plainText (ratio * 100.0) ++ "% of endpoints"
  | .bounded none none => "partial"

/-- The source of the endpoints in words. -/
def sourceSummary (s : DiscoverySettings) : String :=
  match s.file with
  | some path => "file " ++ path
  | none => toString s.endpoints.length ++ " static endpoints"

/-- What is told of valid settings when they are only to be checked. -/
def summary (s : Settings) : String :=
  "Configuration is valid.\n" ++
    "  Group: " ++ s.general.name ++ "\n" ++
    "  Discovery: " ++ sourceSummary s.discovery ++ "\n" ++
    "  Health check: " ++ s.check.probe.description ++ " every " ++ s.check.retryInterval.text ++
    " (" ++ strategySummary s.check.strategy ++ ")\n"

/-- A cause in a report: its first line behind a label, the others indented. -/
def causeText (label indent cause : String) : String :=
  "\n" ++ label ++ ("\n" ++ indent).intercalate (cause.splitOn "\n")

/-- A report of a failure with its causes, each of which has led to the one before it. Several
causes are numbered. -/
def report (failure : String) (causes : List String) : String :=
  let listed := match causes with
    | [cause] => causeText "    " "    " cause
    | _ => String.join (causes.zipIdx.map fun (cause, place) =>
        causeText ("    " ++ toString place ++ ": ") "       " cause)
  "Error: " ++ failure ++ "\n\nCaused by:" ++ listed ++ "\n"

/-- What led to settings not being loaded. -/
def settingsCauses (error : SettingsError) : List String :=
  match error with
  | .unreadable failure => [error.message, failure.message]
  | .misfit => [error.message, "not a document of the expected form"]
  | .invalid _ => [error.message]

/-- What led to a source not being started. -/
def sourceCauses (error : SourceError) : List String :=
  match error with
  | .read _ failure => [error.message, failure.message]
  | .parse _ => [error.message, "not a document of the expected form"]
  | .closed => [error.message]

/-! ## Running -/

/-- How a run of the program ends, or how far it comes before checking begins. -/
inductive Outcome where
  /-- It is over, with an exit code and what was written to the two outputs. -/
  | ended (exit : UInt32) (output errors : String)
  /-- The endpoints are known, and checking them can begin. -/
  | ready (settings : Settings) (endpoints : List Endpoint)

namespace Outcome

/-- The code that the program ends with. -/
def exit : Outcome → UInt32
  | ended code _ _ => code
  | ready _ _ => 0

/-- What is written to the output. -/
def output : Outcome → String
  | ended _ text _ => text
  | ready _ _ => ""

/-- What is written to the output for errors. -/
def errors : Outcome → String
  | ended _ _ text => text
  | ready _ _ => ""

end Outcome

/-- The outcome of a failure, told with its causes. -/
def failed (failure : String) (causes : List String) : Outcome :=
  .ended 1 "" (report failure causes)

/-- Runs the program on its arguments, reading files through `readFile`. -/
def run {m : Type → Type} [Monad m] (readFile : String → m (Except ReadFailure String))
    (arguments : List String) : m Outcome := do
  match readArguments {} arguments with
  | .error error => return .ended 2 "" ("error: " ++ error.message ++ "\n\n" ++ usageLine)
  | .ok .help => return .ended 0 helpText ""
  | .ok .version => return .ended 0 versionText ""
  | .ok (.load config validate) =>
    match Settings.ofFile (← readFile config) with
    | .error error =>
      return failed ("failed to load configuration from '" ++ config ++ "'") (settingsCauses error)
    | .ok settings =>
      if validate then return .ended 0 (summary settings) ""
      else match settings.discovery.file with
        | none => return .ready settings settings.discovery.endpoints
        | some path =>
          match FileFeed.ofContent path (← readFile path) with
          | .error error =>
            return failed "failed to start endpoint discovery" (sourceCauses error)
          | .ok endpoints => return .ready settings endpoints

end HealthWatch.CommandLine
