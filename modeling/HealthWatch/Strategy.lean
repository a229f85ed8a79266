import HealthWatch.Endpoint

/-!
# Strategies

A strategy decides which candidates are checked. It is offered the candidates whenever they change
and hears every report; from these it keeps a selection. Hearing a report may change the selection,
and then it says so.
-/

set_option autoImplicit false

namespace HealthWatch

/-- A rule for which candidates are checked. -/
class Strategy (σ : Type) where
  /-- Takes a new list of candidates. -/
  offer : σ → List Endpoint → σ
  /-- The endpoints to check. -/
  selected : σ → List Endpoint
  /-- Hears a report; the flag asks for the checks to be brought in line with the selection. -/
  judge : σ → Endpoint → Float → σ × Bool

end HealthWatch
