import HealthWatch.Endpoint

/-!
# The health book

The last score reported for each endpoint, and beside it the endpoints that are healthy, those whose
score is above zero. Health is read off the second list and never off the scores, so both are kept
up with every report. A book carries the proof that they agree.
-/

set_option autoImplicit false

namespace HealthWatch

/-- A score that counts as healthy. -/
def HealthBook.positive (score : Float) : Bool :=
  0.0 < score

/-- The last score of each endpoint that has one, and the healthy endpoints; an endpoint is entered
at most once in each. -/
structure HealthBook where
  scores : List (Endpoint × Float)
  healthy : List Endpoint
  /-- Healthy are the endpoints whose last score is above zero. -/
  agree : ∀ e, healthy.contains e = (scores.lookup e).any HealthBook.positive

/-- The score and the health of one endpoint. -/
structure EndpointHealth where
  endpoint : Endpoint
  score : Option Float
  healthy : Bool
deriving Repr, DecidableEq

/-- The health of a list of candidates at one moment. -/
structure HealthSnapshot where
  candidates : Nat
  healthy : Nat
  endpoints : List EndpointHealth
deriving Repr, DecidableEq

namespace HealthBook

/-! ## One key among the entries -/

/-- Among the entries whose keys pass a test, a key that passes it has the value it has among all
of them. -/
theorem lookup_filter {κ ν : Type} [BEq κ] [LawfulBEq κ] (entries : List (κ × ν))
    (test : κ → Bool) (k : κ) :
    (entries.filter (fun entry => test entry.1)).lookup k =
      if test k then entries.lookup k else none := by
  induction entries with
  | nil => simp
  | cons entry rest ih =>
    obtain ⟨key, value⟩ := entry
    grind

/-- An endpoint is left by a filter if it was there and passes the test. -/
theorem contains_filter (endpoints : List Endpoint) (test : Endpoint → Bool) (e : Endpoint) :
    (endpoints.filter test).contains e = (test e && endpoints.contains e) := by
  rw [Bool.eq_iff_iff]
  simp [and_comm]

/-! ## Books -/

/-- The book with nothing in it. -/
def empty : HealthBook :=
  ⟨[], [], fun _ => rfl⟩

instance : EmptyCollection HealthBook := ⟨empty⟩

instance : Inhabited HealthBook := ⟨empty⟩

/-- The last score of an endpoint, if there is one. -/
def score? (b : HealthBook) (e : Endpoint) : Option Float :=
  b.scores.lookup e

/-- Is the endpoint entered as healthy? -/
def isHealthy (b : HealthBook) (e : Endpoint) : Bool :=
  b.healthy.contains e

/-- The book with the scores and the health of those endpoints only that pass a test. -/
def restrict (b : HealthBook) (test : Endpoint → Bool) : HealthBook where
  scores := b.scores.filter (fun entry => test entry.1)
  healthy := b.healthy.filter test
  agree e := by
    rw [contains_filter, lookup_filter, b.agree]
    cases test e <;> simp

/-- The book without an endpoint. -/
def forget (b : HealthBook) (e : Endpoint) : HealthBook :=
  b.restrict (· != e)

/-- The book with a new last score of an endpoint, which is entered among the healthy ones or
struck out there. -/
def record (b : HealthBook) (e : Endpoint) (score : Float) : HealthBook where
  scores := (e, score) :: b.scores.filter (fun entry => entry.1 != e)
  healthy := if positive score then b.healthy.insert e else b.healthy.filter (· != e)
  agree f := by
    have hscores := lookup_filter b.scores (· != e) f
    have hagree := b.agree f
    by_cases hf : f = e
    · subst hf
      cases hscore : positive score <;> simp [hscore]
    · have hne : (f == e) = false := by simpa using hf
      have hkept : (b.scores.filter (fun entry => entry.1 != e)).lookup f = b.scores.lookup f := by
        simpa [hf] using hscores
      rw [List.lookup_cons, hne, hkept, ← hagree]
      cases positive score <;> simp [hf]

/-- Does this score turn the endpoint healthy or unhealthy? A good score does if the endpoint is new
among the healthy ones, any other score if it was one of them. -/
def turns (b : HealthBook) (e : Endpoint) (score : Float) : Bool :=
  if positive score then !b.isHealthy e else b.isHealthy e

/-- The book with the given endpoints only. -/
def keepOnly (b : HealthBook) (endpoints : List Endpoint) : HealthBook :=
  b.restrict endpoints.contains

/-- The healthy ones of some endpoints, in their order. -/
def healthyOf (b : HealthBook) (endpoints : List Endpoint) : List Endpoint :=
  endpoints.filter b.isHealthy

/-- What the book says of an endpoint. -/
def healthOf (b : HealthBook) (e : Endpoint) : EndpointHealth :=
  ⟨e, b.score? e, b.isHealthy e⟩

/-- The health of a list of candidates, entry by entry. -/
def snapshot (b : HealthBook) (candidates : List Endpoint) : HealthSnapshot :=
  let endpoints := candidates.map b.healthOf
  { candidates := candidates.length
    healthy := endpoints.countP EndpointHealth.healthy
    endpoints := endpoints }

/-! ## The score of one endpoint -/

/-- Restricting a book loses the scores of those that fail the test, and no other. -/
theorem score?_restrict (b : HealthBook) (test : Endpoint → Bool) (e : Endpoint) :
    (b.restrict test).score? e = if test e then b.score? e else none :=
  lookup_filter b.scores test e

/-- Forgetting an endpoint loses its score alone. -/
theorem score?_forget (b : HealthBook) (e f : Endpoint) :
    (b.forget e).score? f = if f = e then none else b.score? f := by
  rw [forget, score?_restrict]
  by_cases hf : f = e <;> simp [hf]

/-- Keeping only some endpoints loses the scores of all others. -/
theorem score?_keepOnly (b : HealthBook) (endpoints : List Endpoint) (e : Endpoint) :
    (b.keepOnly endpoints).score? e = if endpoints.contains e then b.score? e else none :=
  score?_restrict b endpoints.contains e

/-- A report gives its endpoint the new score and leaves all others theirs. -/
theorem score?_record (b : HealthBook) (e f : Endpoint) (score : Float) :
    (b.record e score).score? f = if f = e then some score else b.score? f := by
  have h := score?_forget b e f
  by_cases hf : f = e
  · subst hf
    simp [score?, record]
  · have hne : (f == e) = false := by simpa using hf
    simpa [score?, forget, restrict, record, List.lookup_cons, hne, hf] using h

/-! ## The health of one endpoint -/

/-- An endpoint is healthy when its last score is above zero. -/
theorem isHealthy_eq (b : HealthBook) (e : Endpoint) :
    b.isHealthy e = (b.score? e).any positive :=
  b.agree e

/-- Restricting a book leaves those healthy that were and pass the test. -/
theorem isHealthy_restrict (b : HealthBook) (test : Endpoint → Bool) (e : Endpoint) :
    (b.restrict test).isHealthy e = (test e && b.isHealthy e) :=
  contains_filter b.healthy test e

/-- An endpoint that is forgotten is not healthy, and all others are as before. -/
theorem isHealthy_forget (b : HealthBook) (e f : Endpoint) :
    (b.forget e).isHealthy f = (f != e && b.isHealthy f) :=
  isHealthy_restrict b (· != e) f

/-- Keeping only some endpoints leaves those of them healthy that were. -/
theorem isHealthy_keepOnly (b : HealthBook) (endpoints : List Endpoint) (e : Endpoint) :
    (b.keepOnly endpoints).isHealthy e = (endpoints.contains e && b.isHealthy e) :=
  isHealthy_restrict b endpoints.contains e

/-- After a report its endpoint is healthy by the new score, and all others are as before. -/
theorem isHealthy_record (b : HealthBook) (e f : Endpoint) (score : Float) :
    (b.record e score).isHealthy f = if f = e then positive score else b.isHealthy f := by
  rw [isHealthy_eq, isHealthy_eq, score?_record]
  split <;> simp

/-- A score turns its endpoint exactly if the endpoint is healthy before or after it, but not
both. -/
theorem turns_eq (b : HealthBook) (e : Endpoint) (score : Float) :
    b.turns e score = (positive score != b.isHealthy e) := by
  cases hscore : positive score <;> simp [turns, hscore]

/-- A score that does not turn its endpoint leaves the health of every endpoint. -/
theorem isHealthy_record_of_not_turns {b : HealthBook} {e : Endpoint} {score : Float}
    (h : b.turns e score = false) : (b.record e score).isHealthy = b.isHealthy := by
  funext f
  rw [isHealthy_record]
  split
  · rename_i hf
    rw [hf]
    simpa [turns_eq] using h
  · rfl

/-- Forgetting an endpoint that is not healthy leaves the health of every endpoint. -/
theorem isHealthy_forget_of_not_healthy {b : HealthBook} {e : Endpoint}
    (h : b.isHealthy e = false) : (b.forget e).isHealthy = b.isHealthy := by
  funext f
  rw [isHealthy_forget]
  by_cases hf : f = e
  · simp [hf, h]
  · simp [hf]

/-- A snapshot counts the healthy ones of its candidates. -/
theorem healthy_snapshot (b : HealthBook) (candidates : List Endpoint) :
    (b.snapshot candidates).healthy = (b.healthyOf candidates).length := by
  rw [healthyOf, ← List.countP_eq_length_filter]
  exact List.countP_map

end HealthBook

end HealthWatch
