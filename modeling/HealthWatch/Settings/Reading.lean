import HealthWatch.Data.Legible
import HealthWatch.Settings

/-!
# Reading settings

How settings are read from structured data of any format. The fields of a record may be left out,
apart from the source of the endpoints; members of other names do not count.

A strategy says which variant it is. Its other members are read without knowing the variant first,
so they go through plain data.
-/

set_option autoImplicit false

namespace HealthWatch

open Decode

variable {ν : Type} [Legible ν]

/-! ## Strategies -/

namespace StrategySettings

/-- The names of the strategies. -/
def variants : List String :=
  ["all", "partial"]

/-- Reads the name of a strategy. -/
def readVariant (v : ν) : Decoded String := do
  let name ← Legible.text v "variant identifier"
  if variants.contains name then .ok name else .error (.unknownVariant name variants)

/-- Reads the bound on the number of endpoints. -/
def readCount (d : Data) : Decoded (Option UInt64) :=
  optional (fun v => do .ok (UInt64.ofNat (← Legible.word v .long))) d

/-- Reads the bound on the share of the endpoints. -/
def readRatio (d : Data) : Decoded (Option Float) :=
  optional Legible.float d

/-- Reads members: the variant, and the content of the others. -/
def splitMembers (variant : Option String) (others : List (Data × Data)) :
    List (Data × ν) → Decoded (Option String × List (Data × Data))
  | [] => .ok (variant, others.reverse)
  | (.text "type", v) :: rest =>
    if variant.isSome then .error (.duplicateField "type")
    else do splitMembers (some (← readVariant v)) others rest
  | (key, v) :: rest => do splitMembers variant ((key, ← Legible.content v) :: others) rest

/-- Does a key stand for a field: by its name, or by its place? -/
def isField (name : String) (place : Int) : Data → Bool
  | .text key => key == name
  | .whole key => key == place
  | _ => false

/-- Reads the bounds from members. Each may come once; a key that can be no field's is refused. -/
def readBounds (count : Option (Option UInt64)) (ratio : Option (Option Float)) :
    List (Data × Data) → Decoded StrategySettings
  | [] => .ok (bounded count.join ratio.join)
  | (key, d) :: rest =>
    if isField "max_endpoint_count" 0 key then
      if count.isSome then .error (.duplicateField "max_endpoint_count")
      else do readBounds (some (← readCount d)) ratio rest
    else if isField "max_endpoint_ratio" 1 key then
      if ratio.isSome then .error (.duplicateField "max_endpoint_ratio")
      else do readBounds count (some (← readRatio d)) rest
    else
      match key with
      | .text _ => readBounds count ratio rest
      | .whole place =>
        if 0 ≤ place then readBounds count ratio rest
        else .error (.invalidType (.ofData key) "field identifier")
      | _ => .error (.invalidType (.ofData key) "field identifier")

/-- Reads bounds that are given without their names. -/
def readOrderedBounds : List Data → Decoded StrategySettings
  | [] => .ok (bounded none none)
  | [count] => do .ok (bounded (← readCount count) none)
  | count :: ratio :: rest => do
    let count ← readCount count
    let ratio ← readRatio ratio
    if rest.isEmpty then .ok (bounded count ratio)
    else .error (.invalidLength (rest.length + 2) "2 elements in sequence")

/-- Reads the settings of a strategy. -/
def read (v : ν) : Decoded StrategySettings := do
  match ← Legible.tagged v "StrategyConfig" with
  | .members entries =>
    match ← splitMembers none [] entries with
    | (none, _) => .error (.missingField "type")
    | (some "all", _) => .ok all
    | (some _, others) => readBounds none none others
  | .items [] => .error (.missingField "type")
  | .items (first :: rest) =>
    let variant ← readVariant first
    let others ← rest.mapM Legible.content
    if variant != "all" then readOrderedBounds others
    else if others.isEmpty then .ok all
    else .error (.invalidLength others.length "0 elements in sequence")

end StrategySettings

/-! ## Records -/

namespace GeneralSettings

/-- Reads a field. -/
def set (s : GeneralSettings) (name : String) (v : ν) : Decoded GeneralSettings := do
  match name with
  | "name" => .ok { s with name := ← Legible.text v "a string" }
  | "log_level" => .ok { s with logLevel := ← Legible.text v "a string" }
  | "log_format" => .ok { s with logFormat := ← chosen [.json, .pretty] LogFormat.word v }
  | "report_interval" => .ok { s with reportInterval := ← duration v }
  | _ => .ok s

/-- Reads the settings of the whole program. -/
def read (v : ν) : Decoded GeneralSettings :=
  record ⟨"GlobalConfig", ["name", "log_level", "log_format", "report_interval"], []⟩ set {} v

end GeneralSettings

namespace CheckSettings

/-- Reads a field. -/
def set (s : CheckSettings) (name : String) (v : ν) : Decoded CheckSettings := do
  let short (v : ν) : Decoded UInt16 := do .ok (UInt16.ofNat (← Legible.word v .short))
  match name with
  | "type" => .ok { s with kind := ← chosen [.tcp, .http] CheckKind.word v }
  | "protocol" => .ok { s with scheme := ← Decode.scheme v }
  | "port" => .ok { s with port := ← optional short v }
  | "path" => .ok { s with path := ← optional (fun v => Legible.text v "a string") v }
  | "expected_status" => .ok { s with expectedStatus := ← short v }
  | "timeout" => .ok { s with timeout := ← duration v }
  | "retry_interval" => .ok { s with retryInterval := ← duration v }
  | "jitter" => .ok { s with jitter := ← Legible.float v }
  | "strategy" => .ok { s with strategy := ← StrategySettings.read v }
  | _ => .ok s

/-- Reads the settings of the checks, each with its default. -/
def read (v : ν) : Decoded CheckSettings :=
  let fields :=
    ["type", "protocol", "port", "path", "expected_status", "timeout", "retry_interval", "jitter",
      "strategy"]
  record ⟨"HealthCheckConfig", fields, []⟩ set {} v

end CheckSettings

namespace DiscoverySettings

/-- Reads a field. -/
def set (s : DiscoverySettings) (name : String) (v : ν) : Decoded DiscoverySettings := do
  match name with
  | "endpoints" => .ok { s with endpoints := ← list endpoint v }
  | "file" => .ok { s with file := ← optional (fun v => Legible.text v "path string") v }
  | _ => .ok s

/-- Reads where endpoints come from. -/
def read (v : ν) : Decoded DiscoverySettings :=
  record ⟨"DiscoveryConfig", ["endpoints", "file"], []⟩ set {} v

end DiscoverySettings

namespace Settings

/-- Reads a field. -/
def set (s : Settings) (name : String) (v : ν) : Decoded Settings := do
  match name with
  | "global" => .ok { s with general := ← GeneralSettings.read v }
  | "health_check" => .ok { s with check := ← CheckSettings.read v }
  | "discovery" => .ok { s with discovery := ← DiscoverySettings.read v }
  | _ => .ok s

/-- Reads settings. The source of the endpoints must be there. -/
def read (v : ν) : Decoded Settings :=
  record ⟨"Config", ["global", "health_check", "discovery"], ["discovery"]⟩ set ⟨{}, {}, {}⟩ v

end Settings

end HealthWatch
