import HealthWatch.Data
import HealthWatch.Duration.Text
import HealthWatch.Settings

/-!
# Writing settings

Settings as structured data: every field is there, endpoints and durations are texts, and what is
not set is null.
-/

set_option autoImplicit false

namespace HealthWatch

/-- What may be missing, as data. -/
def Data.ofOption {α : Type} (write : α → Data) : Option α → Data
  | none => .null
  | some a => write a

/-- A real number. What is not finite is no number in structured data. -/
def Data.ofReal (x : Float) : Data :=
  if x.isFinite then .real x else .null

/-- A strategy with its variant and bounds. -/
def StrategySettings.toData : StrategySettings → Data
  | all => .record [("type", .text "all")]
  | bounded count ratio =>
    .record
      [("type", .text "partial"),
        ("max_endpoint_count", .ofOption (fun n => .whole n.toNat) count),
        ("max_endpoint_ratio", .ofOption .ofReal ratio)]

/-- The settings of the whole program. -/
def GeneralSettings.toData (s : GeneralSettings) : Data :=
  .record
    [("name", .text s.name),
      ("log_level", .text s.logLevel),
      ("log_format", .text s.logFormat.word),
      ("report_interval", .text s.reportInterval.text)]

/-- The settings of the checks, as data. -/
def CheckSettings.toData (s : CheckSettings) : Data :=
  .record
    [("type", .text s.kind.word),
      ("protocol", .text s.scheme.word),
      ("port", .ofOption (fun p => .whole p.toNat) s.port),
      ("path", .ofOption .text s.path),
      ("expected_status", .whole s.expectedStatus.toNat),
      ("timeout", .text s.timeout.text),
      ("retry_interval", .text s.retryInterval.text),
      ("jitter", .ofReal s.jitter),
      ("strategy", s.strategy.toData)]

/-- The settings of discovery, as data. -/
def DiscoverySettings.toData (s : DiscoverySettings) : Data :=
  .record
    [("endpoints", .list (s.endpoints.map (fun e => .text e.authority))),
      ("file", .ofOption .text s.file)]

/-- Settings as data. -/
def Settings.toData (s : Settings) : Data :=
  .record
    [("global", s.general.toData),
      ("health_check", s.check.toData),
      ("discovery", s.discovery.toData)]

end HealthWatch
