import HealthWatch.Quota
import HealthWatch.Strategy

/-!
# Checking a part of the candidates

The strategy that selects as many candidates as its quota allows. An endpoint that fails while it
is selected is known to be unhealthy and gives its place to another one: to the first candidate
not known to be unhealthy, or else to the first that is. A good report clears the mark.
-/

set_option autoImplicit false

namespace HealthWatch

/-- A selection under a quota. -/
structure BoundedPool where
  quota : Quota
  candidates : List Endpoint := []
  /-- The endpoints to check, those selected longest first. -/
  selected : List Endpoint := []
  /-- The candidates whose last word as a selected endpoint was a failure. -/
  unhealthy : List Endpoint := []
deriving Repr, Inhabited

namespace BoundedPool

/-- How many endpoints the quota allows for the candidates. -/
def places (p : BoundedPool) : Nat :=
  p.quota.maxFor p.candidates.length

/-- Those in line for a place. -/
structure Line where
  /-- Not known to be unhealthy. -/
  free : List Endpoint := []
  /-- Known to be unhealthy. -/
  marked : List Endpoint := []
deriving Repr

/-- A candidate joins the line, unless it keeps its place or stands in line already. -/
def join (p : BoundedPool) (kept : List Endpoint) (line : Line) (e : Endpoint) : Line :=
  if kept.contains e || line.free.contains e || line.marked.contains e then line
  else if p.unhealthy.contains e then { line with marked := line.marked ++ [e] }
  else { line with free := line.free ++ [e] }

/-- The candidates in line for a place: those not known to be unhealthy, then those that are. -/
def queue (p : BoundedPool) (kept : List Endpoint) : List Endpoint :=
  let line := p.candidates.foldl (p.join kept) {}
  line.free ++ line.marked

/-- The pool with the endpoints in `kept` selected as far as there are places, and the places left
over filled from the queue. -/
def fill (p : BoundedPool) (kept : List Endpoint) : BoundedPool :=
  let kept := kept.take p.places
  { p with selected := kept ++ (p.queue kept).take (p.places - kept.length) }

/-- Takes a new list of candidates. Selected endpoints stay selected as far as they are
candidates still and there are places. -/
def offer (p : BoundedPool) (candidates : List Endpoint) : BoundedPool :=
  let p := { p with candidates := candidates, unhealthy := p.unhealthy.filter candidates.contains }
  p.fill (p.selected.filter candidates.contains)

/-- Do two selections hold the same endpoints? -/
def sameEndpoints (a b : List Endpoint) : Bool :=
  a.all b.contains && b.all a.contains

/-- Adds an endpoint to those known to be unhealthy. -/
def mark (p : BoundedPool) (e : Endpoint) : BoundedPool :=
  if p.unhealthy.contains e then p else { p with unhealthy := p.unhealthy ++ [e] }

/-- Takes an endpoint out of those known to be unhealthy. -/
def clear (p : BoundedPool) (e : Endpoint) : BoundedPool :=
  { p with unhealthy := p.unhealthy.filter (· != e) }

/-- Hears a report. A failure of an endpoint that is not selected says nothing about its health:
it comes from a check that is being stopped. -/
def judge (p : BoundedPool) (e : Endpoint) (score : Float) : BoundedPool × Bool :=
  if 0.0 < score then (p.clear e, false)
  else if p.selected.contains e then
    let marked := p.mark e
    let filled := marked.fill (p.selected.erase e)
    (filled, !sameEndpoints p.selected filled.selected)
  else (p, false)

end BoundedPool

instance : Strategy BoundedPool where
  offer := BoundedPool.offer
  selected := BoundedPool.selected
  judge := BoundedPool.judge

end HealthWatch
