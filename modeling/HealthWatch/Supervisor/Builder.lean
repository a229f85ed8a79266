import HealthWatch.FileFeed
import HealthWatch.Strategy.Policy
import HealthWatch.Supervisor

/-!
# Building a supervisor

The options a supervisor is built with, and the checks on them. The first check that fails decides
the error: the port, the quota, the choice of strategy, the runtime, the source.
-/

set_option autoImplicit false

namespace HealthWatch

/-- Why a supervisor cannot be built. -/
inductive BuildError where
  | invalidPort
  | invalidQuota (error : QuotaError)
  | conflictingQuotas
  | conflictingStrategy
  | noRuntime
  | source (error : SourceError)
deriving Repr

namespace BuildError

/-- The wording of a refusal to build. -/
def message : BuildError → String
  | invalidPort => "health check port must be between 1 and 65535"
  | invalidQuota error => error.message
  | conflictingQuotas => "max endpoint count and max endpoint ratio are mutually exclusive"
  | conflictingStrategy =>
    "a custom health check strategy cannot be combined with an endpoint limit"
  | noRuntime => "no tokio runtime available; set one with `runtime()` or build inside a runtime"
  | source error => "failed to load initial endpoints: " ++ error.message

end BuildError

/-- The options of a supervisor. -/
structure Builder where
  scheme : Scheme := .http
  port : Option UInt16 := none
  backoff : Option Backoff := none
  maxCount : Option Nat := none
  maxRatio : Option Float := none
  /-- A strategy of the user's own. -/
  strategy : Option Policy := none
  /-- Is there a runtime for the checks to run on? -/
  runtime : Bool := true
deriving Inhabited

namespace Builder

/-- The quota that the two bounds come to. -/
def quota (b : Builder) : Except BuildError (Option Quota) :=
  match b.maxCount, b.maxRatio with
  | some _, some _ => .error .conflictingQuotas
  | some limit, none => ((Quota.ofCount limit).mapError .invalidQuota).map some
  | none, some share => ((Quota.ofRatio share).mapError .invalidQuota).map some
  | none, none => .ok none

/-- The strategy that the options come to. -/
def policy (b : Builder) : Except BuildError Policy := do
  let quota ← b.quota
  match b.strategy, quota with
  | some _, some _ => .error .conflictingStrategy
  | some policy, none => .ok policy
  | none, quota => .ok (Policy.ofQuota quota)

/-- The supervisor that the options come to, before it has any candidates. -/
def build (b : Builder) (greeting : List Endpoint → Endpoint → List Call) :
    Except BuildError (Supervisor Policy) := do
  if b.port = some 0 then .error .invalidPort
  let policy ← b.policy
  if !b.runtime then .error .noRuntime
  let terms : Terms :=
    { scheme := b.scheme
      port := b.port
      backoff := b.backoff.getD .usual
      greeting := greeting }
  .ok (Supervisor.fresh terms policy)

end Builder

end HealthWatch
