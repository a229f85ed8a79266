import HealthWatch.Metrics

/-!
# The exposition of metrics

The text that metrics are collected as. Each family has a line of help and a line with its type,
also if it has no samples, and a line for every sample. Label values stand between quotes as they
are. A line of its own ends the text.
-/

set_option autoImplicit false

namespace HealthWatch

/-- A line of a family: the labels of a sample in order, and its value. -/
structure SampleLine where
  labels : List (String × String)
  value : String

/-- A family as it is written. -/
structure Exposition where
  name : String
  help : String
  type : String
  /-- What the names of samples have behind the name of the family. -/
  ending : String := ""
  lines : List SampleLine

namespace Exposition

/-- The labels of a sample in braces. -/
def labelText (labels : List (String × String)) : String :=
  "\x7b" ++ ",".intercalate (labels.map fun (name, value) => name ++ "=\"" ++ value ++ "\"") ++
    "\x7d"

/-- The text of a family: its help, its type and its samples. -/
def text (e : Exposition) : String :=
  "# HELP " ++ e.name ++ " " ++ e.help ++ ".\n" ++
    "# TYPE " ++ e.name ++ " " ++ e.type ++ "\n" ++
    String.join (e.lines.map fun line =>
      e.name ++ e.ending ++ labelText line.labels ++ " " ++ line.value ++ "\n")

end Exposition

/-- The label by which a count tells what it counts. -/
def CountedState.label : CountedState → String
  | candidate => "Candidate"
  | healthy => "Healthy"

namespace Metrics

/-- How many endpoints groups have. -/
def countExposition (m : Metrics) : Exposition :=
  { name := "endpoint_group_count"
    help := "Number of endpoints in a group by state"
    type := "gauge"
    lines := m.counts.samples.map fun ((group, state), value) =>
      ⟨[("group", group), ("state", state.label)], toString value.toInt⟩ }

/-- The gauges of health, as they are shown. -/
def healthExposition (m : Metrics) : Exposition :=
  { name := "endpoint_group_healthy"
    help := "Endpoint health status (1=healthy, 0=unhealthy)"
    type := "gauge"
    lines := m.health.samples.map fun ((group, authority), value) =>
      ⟨[("group", group), ("authority", authority)], toString value.toInt⟩ }

/-- How often lists were published. -/
def publicationExposition (m : Metrics) : Exposition :=
  { name := "endpoint_group_publications"
    help := "Number of times the healthy endpoint list changed"
    type := "counter"
    ending := "_total"
    lines := m.publications.samples.map fun (group, value) =>
      ⟨[("group", group)], toString value⟩ }

/-- The text of all metrics. The order of a family's samples has no meaning. -/
def text (m : Metrics) : String :=
  m.countExposition.text ++ m.healthExposition.text ++ m.publicationExposition.text ++ "# EOF\n"

end Metrics

end HealthWatch
