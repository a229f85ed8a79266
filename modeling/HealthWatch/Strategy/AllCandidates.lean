import HealthWatch.Strategy

/-!
# Checking all candidates

The strategy that selects every candidate and pays no attention to reports.
-/

set_option autoImplicit false

namespace HealthWatch

/-- Every candidate is selected, in the order and as often as it is offered. -/
structure AllCandidates where
  candidates : List Endpoint := []
deriving Repr, Inhabited

namespace AllCandidates

/-- Takes a new list of candidates. -/
def offer (_ : AllCandidates) (candidates : List Endpoint) : AllCandidates :=
  ⟨candidates⟩

end AllCandidates

instance : Strategy AllCandidates where
  offer := AllCandidates.offer
  selected := AllCandidates.candidates
  judge s _ _ := (s, false)

end HealthWatch
