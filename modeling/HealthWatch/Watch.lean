import HealthWatch.Endpoint
import HealthWatch.Roster

/-!
# Watches

A watch is the health check of one endpoint while it lasts: the endpoint, the place the check goes
to, the jobs under way, and whether it has reported. A retired watch has a closed roster.
-/

set_option autoImplicit false

namespace HealthWatch

/-- The health check of one endpoint. -/
structure Watch where
  origin : Endpoint
  target : Endpoint
  roster : Roster := {}
  /-- Has it reported, or been retired? -/
  reported : Bool := false
deriving Repr, Inhabited

namespace Watch

/-- A watch is retired once its roster is closed. -/
def retired (w : Watch) : Bool :=
  w.roster.closed

/-- The watch, which has reported. -/
def markReported (w : Watch) : Watch :=
  { w with reported := true }

/-- The watch at its end: its jobs are dropped, and it takes no more. -/
def retire (w : Watch) : Watch :=
  { w with roster := w.roster.close }

/-- One line on a watch: whether it lives, whether it has reported, and its jobs under way. -/
def summary (w : Watch) : String :=
  w.origin.authority ++ (if w.retired then " destroyed" else " live") ++
    (if w.reported then " reported " else " silent ") ++ toString w.roster.pending.length

end Watch

/-- Why a watch refuses to schedule a job or to name a delay. -/
inductive JobError where
  /-- The watch is retired. -/
  | rejected (target : Endpoint)
  /-- The backoff gave a negative delay. -/
  | negativeDelay (target : Endpoint) (millis : Int64)
  /-- A job cannot repeat without time passing. -/
  | zeroPeriod
deriving Repr

namespace JobError

/-- The wording of a refusal to take a job or to name its delay. -/
def message : JobError → String
  | rejected target =>
    "health checker context for '" ++ target.authority ++ "' has been destroyed already"
  | negativeDelay target millis =>
    "retry backoff returned a negative delay for '" ++ target.authority ++ "': " ++
      toString millis.toInt ++ "ms"
  | zeroPeriod => "period must be greater than zero"

end JobError

/-- The wait before the next check of a watch, in milliseconds, where a backoff gives a delay. -/
def Watch.waitFor (w : Watch) (delay : Int64) : Except JobError Nat :=
  if delay < 0 then .error (.negativeDelay w.target delay) else .ok delay.toInt.toNat

end HealthWatch
