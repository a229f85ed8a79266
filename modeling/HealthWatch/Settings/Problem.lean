import HealthWatch.Settings

/-!
# Problems in settings

What can be wrong with settings that can be read. Each rule is judged on its own, so no problem
hides another; they are listed in a fixed order.
-/

set_option autoImplicit false

namespace HealthWatch

/-- A violated rule. -/
inductive Problem where
  | noSource
  | twoSources
  | repeatedEndpoint (endpoint : Endpoint)
  | missingPath
  | relativePath (path : String)
  | zeroPort
  | zeroTimeout
  | zeroInterval
  | jitterRange (rate : Float)
  | twoBounds
  | noBound
  | quota (error : QuotaError)
  | unknownLevel (level : String)
  | emptyName
deriving Repr

/-- The levels of the log. -/
def logLevels : List String :=
  ["trace", "debug", "info", "warn", "error"]

namespace Problem

/-- The wording of a problem. -/
def message : Problem → String
  | noSource => "discovery must define endpoints or a file"
  | twoSources => "discovery endpoints and file are mutually exclusive"
  | repeatedEndpoint e => "duplicate endpoint: " ++ e.authority
  | missingPath => "HTTP health check but no path specified"
  | relativePath path => "health check path '" ++ path ++ "' must start with '/'"
  | zeroPort => "health check port must be between 1 and 65535"
  | zeroTimeout => "health check timeout must be greater than 0"
  | zeroInterval => "health check retry_interval must be greater than 0"
  | jitterRange rate =>
    "health check jitter must be between 0 and 1, got " ++ Decimal.plainText rate
  | twoBounds => "partial strategy takes max_endpoint_count or max_endpoint_ratio, not both"
  | noBound => "partial strategy requires max_endpoint_count or max_endpoint_ratio"
  | quota error => error.message
  | unknownLevel level =>
    "invalid log level '" ++ level ++ "', must be one of: " ++ ", ".intercalate logLevels
  | emptyName => "group name cannot be empty"

/-- The wording of several problems. -/
def summary (problems : List Problem) : String :=
  "; ".intercalate (problems.map message)

end Problem

/-- The endpoints that occur again, once for each occurrence behind the first; `seen` are those
before the list. -/
def repeatedEndpoints (seen : List Endpoint) : List Endpoint → List Endpoint
  | [] => []
  | e :: rest =>
    if seen.contains e then e :: repeatedEndpoints seen rest
    else repeatedEndpoints (e :: seen) rest

/-- The problem that a check of a bound has found, if it has found one. -/
def Problem.ofCheck (checked : Except QuotaError Quota) : List Problem :=
  match checked with
  | .ok _ => []
  | .error error => [.quota error]

/-- A strategy has one bound, and a valid one. -/
def StrategySettings.problems : StrategySettings → List Problem
  | all => []
  | bounded (some _) (some _) => [.twoBounds]
  | bounded none none => [.noBound]
  | bounded (some count) none => Problem.ofCheck (Quota.ofCount count.toNat)
  | bounded none (some ratio) => Problem.ofCheck (Quota.ofRatio ratio)

/-- There is one source, and it lists no endpoint twice. -/
def DiscoverySettings.problems (s : DiscoverySettings) : List Problem :=
  let sources :=
    if s.endpoints.isEmpty && s.file.isNone then [Problem.noSource]
    else if !s.endpoints.isEmpty && s.file.isSome then [Problem.twoSources]
    else []
  sources ++ (repeatedEndpoints [] s.endpoints).map .repeatedEndpoint

/-- A request has a path, which begins at the root. -/
def CheckSettings.pathProblems (s : CheckSettings) : List Problem :=
  match s.kind, s.path with
  | .tcp, _ => []
  | .http, none => [.missingPath]
  | .http, some path => if path.startsWith "/" then [] else [.relativePath path]

/-- Port and times are not zero, the jitter is a share, and the strategy has a bound. -/
def CheckSettings.problems (s : CheckSettings) : List Problem :=
  s.pathProblems ++
    (if s.port == some 0 then [.zeroPort] else []) ++
    (if s.timeout.isZero then [.zeroTimeout] else []) ++
    (if s.retryInterval.isZero then [.zeroInterval] else []) ++
    (if 0.0 ≤ s.jitter && s.jitter ≤ 1.0 then [] else [.jitterRange s.jitter]) ++
    s.strategy.problems

/-- The level is known, whatever its case, and there is a name. -/
def GeneralSettings.problems (s : GeneralSettings) : List Problem :=
  (if logLevels.contains s.logLevel.toLower then [] else [.unknownLevel s.logLevel]) ++
    (if s.name.isEmpty then [.emptyName] else [])

/-- All problems of settings, in the order in which they are told. -/
def Settings.problems (s : Settings) : List Problem :=
  s.discovery.problems ++ s.check.problems ++ s.general.problems

/-- Settings are valid if there is no problem. Otherwise one text tells all of them. -/
def Settings.validate (s : Settings) : Except String Unit :=
  match s.problems with
  | [] => .ok ()
  | problems => .error (Problem.summary problems)

end HealthWatch
