import HealthWatch.Supervisor

/-!
# Probing checks

A probing check looks at its endpoint in one job after another. A job waits for its turn, probes the
endpoint, reports the result and has the next job follow after a delay; then it leaves the roster of
its watch.

The check stops when its handle is closed: a job whose turn comes later does not probe, and a result
that comes later is not reported. It stops as well when its watch takes no more jobs, and when the
backoff gives a negative delay.
-/

set_option autoImplicit false

namespace HealthWatch

/-- How far a job of a probing check has come. -/
inductive Prober.Stage where
  /-- Its turn is still to come. -/
  | waiting
  | probing
  /-- It has reported, and has another job follow next. -/
  | told
  /-- It has nothing left to do but to leave the roster. -/
  | leaving
deriving Repr, DecidableEq

/-- A probing check. -/
structure Prober where
  /-- The watch that it reports for. -/
  watch : Nat
  /-- Is its handle closed? -/
  closed : Bool := false
  /-- The jobs that have not left, each with its stage. -/
  jobs : List (Nat × Prober.Stage) := []
deriving Repr, Inhabited

namespace Prober

/-- The score that tells a result. -/
def score (healthy : Bool) : Float :=
  if healthy then 1.0 else 0.0

/-- The stage of a job, if it has not left. -/
def stage? (p : Prober) (job : Nat) : Option Stage :=
  p.jobs.lookup job

/-- Closes the handle. -/
def close (p : Prober) : Prober :=
  { p with closed := true }

/-- The numbers of the jobs that have not left. -/
def numbers (p : Prober) : List Nat :=
  p.jobs.map Prod.fst

/-- Brings a job to a stage. -/
def move (p : Prober) (job : Nat) (stage : Stage) : Prober :=
  { p with jobs := p.jobs.map fun entry => if entry.1 == job then (job, stage) else entry }

/-- Takes in a job, whose turn is still to come. -/
def add (p : Prober) (job : Nat) : Prober :=
  { p with jobs := p.jobs ++ [(job, .waiting)] }

/-- Takes a job out. -/
def remove (p : Prober) (job : Nat) : Prober :=
  { p with jobs := p.jobs.filter fun entry => entry.1 != job }

/-- The turn of a job has come: it probes, unless the handle is closed. -/
def wake (p : Prober) (job : Nat) : Prober :=
  p.move job (if p.closed then .leaving else .probing)

/-! ## The jobs by their numbers -/

/-- The numbers of a prober are those of its jobs at any stage. -/
theorem mem_numbers {p : Prober} {job : Nat} :
    job ∈ p.numbers ↔ ∃ stage, p.stage? job = some stage := by
  rw [stage?, ← Option.isSome_iff_exists, List.lookup_isSome_iff, numbers, List.mem_map]
  refine exists_congr fun entry => and_congr_right fun _ => ?_
  rw [beq_iff_eq, eq_comm]

/-- A job found at a stage is among the jobs. -/
theorem mem_jobs_of_stage? {p : Prober} {job : Nat} {stage : Stage}
    (h : p.stage? job = some stage) : (job, stage) ∈ p.jobs := by
  obtain ⟨before, after, hjobs, -⟩ := List.lookup_eq_some_iff.mp h
  rw [hjobs]
  exact List.mem_append_right before List.mem_cons_self

/-- Bringing a job to a stage keeps the numbers. -/
theorem numbers_move (p : Prober) (job : Nat) (stage : Stage) :
    (p.move job stage).numbers = p.numbers := by
  simp only [numbers, move, List.map_map]
  refine List.map_congr_left fun entry _ => ?_
  show (if entry.1 == job then (job, stage) else entry).1 = entry.1
  split
  · rename_i h
    exact (eq_of_beq h).symm
  · rfl

/-- The number of a new job comes last. -/
theorem numbers_add (p : Prober) (job : Nat) : (p.add job).numbers = p.numbers ++ [job] := by
  simp [numbers, add]

/-- A job that is removed takes its number with it. -/
theorem numbers_remove (p : Prober) (job : Nat) :
    (p.remove job).numbers = p.numbers.filter (· != job) := by
  rw [numbers, numbers, remove, List.filter_map]
  rfl

/-- Bringing a job to a stage changes that job alone, and makes no new one. -/
theorem stage?_move (p : Prober) (job : Nat) (stage : Stage) (other : Nat) :
    (p.move job stage).stage? other =
      if other = job then (p.stage? other).map fun _ => stage else p.stage? other := by
  simp only [stage?, move]
  induction p.jobs with
  | nil => simp
  | cons entry rest ih =>
    obtain ⟨number, old⟩ := entry
    rw [List.map_cons, List.lookup_cons]
    by_cases hnumber : number = job <;> by_cases hother : other = number <;>
      simp_all [List.lookup_cons, beq_false_of_ne]

/-- A new job waits if its number was free, and all others are where they were. -/
theorem stage?_add (p : Prober) (job other : Nat) :
    (p.add job).stage? other =
      (p.stage? other).or (if other = job then some .waiting else none) := by
  rw [stage?, add, List.lookup_append]
  by_cases hother : other = job <;> simp [stage?, List.lookup_cons, hother, beq_false_of_ne]

/-- Removing a job leaves all others where they were. -/
theorem stage?_remove (p : Prober) (job other : Nat) :
    (p.remove job).stage? other = if other = job then none else p.stage? other := by
  rw [stage?, remove, HealthBook.lookup_filter p.jobs (· != job)]
  by_cases hother : other = job <;> simp [stage?, hother]

/-! ## Jobs and the supervisor -/

variable {σ : Type}

/-- Enters a job of the check in the roster of its watch. A retired watch takes none. -/
def enter (p : Prober) (s : Supervisor σ) : Option (Nat × Prober × Supervisor σ) := do
  let (job, s) ← s.enterJob p.watch
  some (job, p.add job, s)

/-- A new check of a watch, and the number of its first job, which is entered right away. A retired
watch takes none. -/
def create (s : Supervisor σ) (watch : Nat) : Option Nat × Prober × Supervisor σ :=
  let p : Prober := { watch := watch }
  match p.enter s with
  | none => (none, p, s)
  | some (job, p, s) => (some job, p, s)

/-- The probe of a job is over: its result is reported, unless the handle is closed. -/
def conclude [Strategy σ] (p : Prober) (s : Supervisor σ) (job : Nat) (healthy : Bool) :
    Option (Prober × Supervisor σ) :=
  if p.closed then some (p.move job .leaving, s)
  else do
    let s ← s.report p.watch (score healthy)
    some (p.move job .told, s)

/-- Has another job follow one that has reported, after the delay that the backoff gives; gives the
number of the job that follows and its delay in milliseconds. None follows a negative delay. -/
def follow (p : Prober) (s : Supervisor σ) (job : Nat) (delay : Int64) :
    Option (Nat × Nat) × Prober × Supervisor σ :=
  let p := p.move job .leaving
  let next : Option ((Nat × Nat) × Prober × Supervisor σ) := do
    let w ← s.watches[p.watch]?
    let millis ← (w.waitFor delay).toOption
    let (job, p, s) ← p.enter s
    some ((job, millis), p, s)
  match next with
  | none => (none, p, s)
  | some (next, p, s) => (some next, p, s)

/-- Takes a job out of the roster. -/
def leave (p : Prober) (s : Supervisor σ) (job : Nat) : Prober × Supervisor σ :=
  (p.remove job, s.releaseJob p.watch job)

end Prober

end HealthWatch
