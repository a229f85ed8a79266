import HealthWatch.Duration
import HealthWatch.Feed
import HealthWatch.FileFeed
import HealthWatch.Supervisor.Builder
import HealthWatch.Text.Quoted

/-!
# Settings

What a user sets: a name and a way of logging, how endpoints are checked, and where they come
from. Everything has a default but the source of the endpoints.

This module holds the settings and what they mean for a supervisor: its probe, its backoff and its
builder's options. How settings are read, written and judged is said in the modules beside it.
-/

set_option autoImplicit false

namespace HealthWatch

/-! ## Parts -/

/-- How log lines are written. -/
inductive LogFormat where
  | json
  | pretty
deriving Repr, DecidableEq

/-- The word for a format of the log. -/
def LogFormat.word : LogFormat → String
  | json => "json"
  | pretty => "pretty"

/-- How an endpoint is checked: by a connection, or by a request over it. -/
inductive CheckKind where
  | tcp
  | http
deriving Repr, DecidableEq

/-- The word for a kind of check. -/
def CheckKind.word : CheckKind → String
  | tcp => "tcp"
  | http => "http"

/-- Which candidates are checked. Of the two bounds one is wanted; that neither or both may be
given is judged later. -/
inductive StrategySettings where
  | all
  | bounded (count : Option UInt64) (ratio : Option Float)
deriving Repr

/-- Settings of the whole program. -/
structure GeneralSettings where
  name : String := "default"
  logLevel : String := "info"
  logFormat : LogFormat := .json
  reportInterval : Duration := .ofSeconds 30
deriving Repr

/-- What is set for the checks. -/
structure CheckSettings where
  kind : CheckKind := .tcp
  scheme : Scheme := .http
  /-- The port that is checked instead of each endpoint's own. -/
  port : Option UInt16 := none
  /-- The path that is requested. -/
  path : Option String := none
  expectedStatus : UInt16 := 200
  timeout : Duration := .ofSeconds 5
  retryInterval : Duration := .ofSeconds 3
  /-- How far the retry interval may vary, as a share of it. -/
  jitter : Float := Backoff.usualRate
  strategy : StrategySettings := .all
deriving Repr

/-- Settings of the source: a list of endpoints, or a file with one. -/
structure DiscoverySettings where
  endpoints : List Endpoint := []
  file : Option String := none
deriving Repr

/-- What can be set. -/
structure Settings where
  general : GeneralSettings := {}
  check : CheckSettings := {}
  discovery : DiscoverySettings
deriving Repr

/-! ## Probes -/

/-- What a check does: it connects, or it requests a path and expects a status. -/
inductive Probe where
  | tcp
  | http (path : String) (expectedStatus : UInt16)
deriving Repr

/-- How a probe is shown. -/
def Probe.description : Probe → String
  | tcp => "Tcp"
  | http path status =>
    "Http \x7b path: " ++ Text.quoted path ++ ", expected_status: " ++ toString status.toNat ++
      " \x7d"

/-! ## What settings mean -/

namespace CheckSettings

/-- The probe of the checks. The path that is requested is the root if none is set. -/
def probe (s : CheckSettings) : Probe :=
  match s.kind with
  | .tcp => .tcp
  | .http => .http (s.path.getD "/") s.expectedStatus

/-- The retry interval with its jitter. An interval too long for a delay becomes the longest. -/
def backoff (s : CheckSettings) : Backoff :=
  .withJitter (.fixed (Int64.ofIntClamp s.retryInterval.millis)) s.jitter

/-- A builder with the settings set in it. A port or a bound that is not set leaves what the
builder has. -/
def configure (s : CheckSettings) (b : Builder) : Builder :=
  let b := { b with scheme := s.scheme, backoff := some s.backoff, port := s.port <|> b.port }
  match s.strategy with
  | .all => b
  | .bounded count ratio =>
    { b with
      maxCount := count.map UInt64.toNat <|> b.maxCount
      maxRatio := ratio <|> b.maxRatio }

end CheckSettings

end HealthWatch
