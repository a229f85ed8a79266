import HealthWatch.HealthBook
import HealthWatch.Metrics.Family

/-!
# Metrics

What is counted of groups of endpoints: for each group how many candidates it has and how many of
them are healthy, the health of each candidate by its authority, and how often the group's list was
published.

Recording a snapshot sets the gauges of its endpoints and removes those of endpoints that the
group's last snapshot had and this one has not. The authorities of the last snapshots are kept for
that.
-/

set_option autoImplicit false

namespace HealthWatch

/-- Which endpoints of a group a count is of. -/
inductive CountedState where
  | candidate
  | healthy
deriving Repr, DecidableEq

/-- The samples of all groups. -/
structure Metrics where
  /-- How many endpoints a group has in a state. -/
  counts : Family (String × CountedState) Int64 := {}
  /-- The health of an authority in a group: one or zero. -/
  health : Family (String × String) Int64 := {}
  /-- How often a group's list was published. The count has no bound; one in a word of 64 bits is
  the same for the first 2 ^ 64 publications. -/
  publications : Family String Nat := {}
  /-- The authorities in the last snapshot of a group. -/
  recorded : Family String (List String) := {}
deriving Inhabited

namespace Metrics

/-- The value of a gauge that tells health. -/
def healthValue (healthy : Bool) : Int64 :=
  if healthy then 1 else 0

/-- Sets the gauges of a snapshot's endpoints, one after the other. -/
def setHealth (group : String) (health : Family (String × String) Int64)
    (endpoints : List EndpointHealth) : Family (String × String) Int64 :=
  endpoints.foldl
    (fun health e => health.set (group, e.endpoint.authority) (healthValue e.healthy)) health

/-- Takes away the gauges of some authorities in a group. -/
def removeHealth (group : String) (health : Family (String × String) Int64)
    (authorities : List String) : Family (String × String) Int64 :=
  authorities.foldl (fun health authority => health.remove (group, authority)) health

/-- Records a snapshot of a group. A count that a word with a sign does not hold wraps. -/
def record (m : Metrics) (group : String) (snapshot : HealthSnapshot) : Metrics :=
  let current := snapshot.endpoints.map (fun e => e.endpoint.authority)
  let gone := ((m.recorded.get? group).getD []).filter (fun a => !current.contains a)
  { m with
    counts := (m.counts.set (group, .candidate) (Int64.ofNat snapshot.candidates)).set
      (group, .healthy) (Int64.ofNat snapshot.healthy)
    health := removeHealth group (setHealth group m.health snapshot.endpoints) gone
    recorded := m.recorded.set group current }

/-- Counts a publication of a group's list. -/
def publish (m : Metrics) (group : String) : Metrics :=
  { m with publications := m.publications.update group 0 (· + 1) }

end Metrics

end HealthWatch
