import HealthWatch.Strategy.AllCandidates
import HealthWatch.Strategy.BoundedPool

/-!
# Policies

A strategy chosen at run time: all candidates, a bounded pool of them, or one of these that keeps a
record of the reports it hears.
-/

set_option autoImplicit false

namespace HealthWatch

/-- A strategy that is chosen at run time. -/
inductive Policy where
  | all (state : AllCandidates)
  | bounded (state : BoundedPool)
  /-- Passes everything on to another policy and notes the reports, the latest last. With `always`
  it asks for a pass after every report. -/
  | recorded (told : List (Endpoint × Float)) (always : Bool) (base : Policy)
deriving Inhabited

namespace Policy

/-- The policy of a bounded pool, or of all candidates where there is no bound. -/
def ofQuota (quota : Option Quota) : Policy :=
  match quota with
  | none => all {}
  | some quota => bounded { quota := quota }

/-- Takes a new list of candidates. -/
def offer : Policy → List Endpoint → Policy
  | all state, candidates => all (state.offer candidates)
  | bounded state, candidates => bounded (state.offer candidates)
  | recorded told always base, candidates => recorded told always (base.offer candidates)

/-- The selected endpoints. -/
def selected : Policy → List Endpoint
  | all state => state.candidates
  | bounded state => state.selected
  | recorded _ _ base => base.selected

/-- Hears a report. -/
def judge : Policy → Endpoint → Float → Policy × Bool
  | all state, _, _ => (all state, false)
  | bounded state, e, score =>
    let (state, moved) := state.judge e score
    (bounded state, moved)
  | recorded told always base, e, score =>
    let (base, moved) := base.judge e score
    (recorded (told ++ [(e, score)]) always base, always || moved)

/-- The reports noted so far. -/
def told : Policy → List (Endpoint × Float)
  | recorded told _ _ => told
  | _ => []

end Policy

instance : Strategy Policy where
  offer := Policy.offer
  selected := Policy.selected
  judge := Policy.judge

end HealthWatch
