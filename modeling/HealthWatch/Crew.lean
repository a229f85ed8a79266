import HealthWatch.Supervisor

/-!
# Crews

The jobs that were scheduled with one watch. A job runs step by step: each step goes on until the
job waits for something or is over, and the job is run again when that has come.

A job is stopped when it is cancelled, and a watch that is retired stops the jobs in its roster. A
job that is stopped while it waits is never run again; one that is stopped during a step goes on to
the end of the step. The roster says which jobs are under way: a job leaves it when it is cancelled
or over, and all leave it with the end of the watch.
-/

set_option autoImplicit false

namespace HealthWatch

/-- When the runs of a job are due, in milliseconds. -/
inductive Rhythm where
  /-- One run, after a delay if one is given. -/
  | once (delay : Option Nat)
  /-- A run every period; runs that are late are made up for. -/
  | fixedRate (initial period : Nat)
  /-- A run a while after the end of the one before. -/
  | fixedDelay (initial delay : Nat)
deriving Repr, DecidableEq

/-- Is the job to be run again and again with no time between? -/
def Rhythm.hasZeroPeriod : Rhythm → Bool
  | fixedRate _ 0 => true
  | _ => false

/-- How far a job has come. -/
inductive Job.Stage where
  /-- It is to be run when what it waits for has come. -/
  | waiting
  /-- It is in the middle of a step. -/
  | running
  | over
deriving Repr, DecidableEq

/-- A job of a watch. -/
structure Job where
  /-- Its number in the roster. -/
  number : Nat
  rhythm : Rhythm
  stage : Job.Stage := .waiting
  /-- It is not to be run again. -/
  stopped : Bool := false
deriving Repr, DecidableEq

namespace Job

/-- May the next step of the job begin? -/
def ready (j : Job) : Bool :=
  j.stage = .waiting && !j.stopped

/-- No further step of the job is to come. -/
def atRest (j : Job) : Bool :=
  j.stage = .over || j.stopped

/-- No step of the job is to come or under way. -/
def finished (j : Job) : Bool :=
  j.atRest && j.stage ≠ .running

/-- The job at another stage. -/
def move (j : Job) (stage : Stage) : Job :=
  { j with stage := stage }

/-- The job, which is not to be run again. -/
def stop (j : Job) : Job :=
  { j with stopped := true }

/-- A job that is stopped has no further step to come. -/
theorem atRest_stop (j : Job) : j.stop.atRest = true :=
  Bool.or_true _

/-- A job that is over has no further step to come. -/
theorem atRest_move_over (j : Job) : (j.move .over).atRest = true :=
  Bool.true_or _

/-- As long as a job does not end, its stage has no say in whether it is at rest. -/
theorem atRest_move {j : Job} {stage : Stage} (hold : j.stage ≠ .over) (hnew : stage ≠ .over) :
    (j.move stage).atRest = j.atRest := by
  simp [atRest, move, hold, hnew]

/-- Only a job that waits can be run. -/
theorem stage_of_ready {j : Job} (h : j.ready = true) : j.stage = .waiting := by
  simp_all [ready]

/-- A job that can be run is not at rest. -/
theorem not_atRest_of_ready {j : Job} (h : j.ready = true) : j.atRest = false := by
  simp_all [ready, atRest]

/-- A job that waits is run again unless it was stopped. -/
theorem ready_of_waiting {j : Job} (h : j.stage = .waiting) : j.ready = !j.atRest := by
  simp [ready, atRest, h]

end Job

/-- All jobs ever scheduled with a watch, the newest last. -/
structure Crew where
  watch : Nat
  jobs : List Job := []
deriving Repr, DecidableEq

namespace Crew

/-- The job with a number. -/
def job? (c : Crew) (number : Nat) : Option Job :=
  c.jobs.find? fun j => j.number == number

/-- The numbers of all jobs, those that are over included. -/
def numbers (c : Crew) : List Nat :=
  c.jobs.map Job.number

/-- May the next step of a job begin? -/
def ready (c : Crew) (number : Nat) : Bool :=
  (c.job? number).any Job.ready

/-- Is no step of a job under way or to come? -/
def finished (c : Crew) (number : Nat) : Bool :=
  (c.job? number).all Job.finished

/-- Takes in a job, which is still to be run. -/
def add (c : Crew) (number : Nat) (rhythm : Rhythm) : Crew :=
  { c with jobs := c.jobs ++ [{ number := number, rhythm := rhythm }] }

/-- Changes some jobs. -/
def edit (c : Crew) (concerned : Nat → Bool) (f : Job → Job) : Crew :=
  { c with jobs := c.jobs.map fun j => if concerned j.number then f j else j }

/-- Brings a job to a stage. -/
def move (c : Crew) (number : Nat) (stage : Job.Stage) : Crew :=
  c.edit (· == number) (Job.move · stage)

/-- Has some jobs not run again. -/
def stop (c : Crew) (numbers : List Nat) : Crew :=
  c.edit numbers.contains Job.stop

/-- A step of a job begins. -/
def start (c : Crew) (number : Nat) : Crew :=
  c.move number .running

/-- A step of a job ends with the job waiting for something. -/
def pause (c : Crew) (number : Nat) : Crew :=
  c.move number .waiting

/-! ## The jobs by their numbers -/

section

variable {c : Crew} {n : Nat} {j : Job}

/-- The job found under a number has that number. -/
theorem number_of_job? (h : c.job? n = some j) : j.number = n :=
  eq_of_beq (by simpa using List.find?_some h)

/-- The numbers of a crew are those under which it has a job. -/
theorem mem_numbers : n ∈ c.numbers ↔ ∃ j, c.job? n = some j := by
  rw [← Option.isSome_iff_exists, job?, List.find?_isSome, numbers, List.mem_map]
  exact exists_congr fun j => and_congr_right fun _ => beq_iff_eq.symm

/-- The number of a new job comes last. -/
theorem numbers_add (c : Crew) (n : Nat) (rhythm : Rhythm) :
    (c.add n rhythm).numbers = c.numbers ++ [n] := by
  simp [numbers, add]

/-- A new job is found under its number if that was free, and all others are found as before. -/
theorem job?_add (c : Crew) (n : Nat) (rhythm : Rhythm) (m : Nat) :
    (c.add n rhythm).job? m =
      (c.job? m).or (if n = m then some { number := n, rhythm := rhythm } else none) := by
  rw [job?, add, List.find?_append, List.find?_singleton]
  simp only [beq_iff_eq]
  rfl

variable (f : Job → Job) (hf : ∀ j, (f j).number = j.number) {concerned : Nat → Bool}
include hf

/-- A change that keeps each job's number keeps the list of numbers. -/
theorem numbers_edit : (c.edit concerned f).numbers = c.numbers := by
  rw [numbers, numbers, edit, List.map_map]
  refine List.map_congr_left fun j _ => ?_
  rw [Function.comp_apply]
  split
  · exact hf j
  · rfl

/-- After a change each job is found under its number, changed if it is concerned. -/
theorem job?_edit (m : Nat) :
    (c.edit concerned f).job? m = (c.job? m).map fun j => if concerned m then f j else j := by
  have hnumber (j : Job) : (if concerned j.number then f j else j).number = j.number := by
    split
    · exact hf j
    · rfl
  rw [job?, edit, List.find?_map]
  simp only [Function.comp_def, hnumber]
  refine Option.map_congr fun j hj => ?_
  rw [number_of_job? hj]

omit hf

/-- Bringing a job to a stage keeps the numbers. -/
theorem numbers_move (c : Crew) (n : Nat) (stage : Job.Stage) :
    (c.move n stage).numbers = c.numbers :=
  numbers_edit (Job.move · stage) fun _ => rfl

/-- Bringing a job to a stage changes that job alone. -/
theorem job?_move (c : Crew) (n : Nat) (stage : Job.Stage) (m : Nat) :
    (c.move n stage).job? m = (c.job? m).map fun j => if m == n then j.move stage else j :=
  job?_edit (Job.move · stage) (fun _ => rfl) m

/-- Stopping jobs keeps the numbers. -/
theorem numbers_stop (c : Crew) (numbers : List Nat) : (c.stop numbers).numbers = c.numbers :=
  numbers_edit Job.stop fun _ => rfl

/-- Stopping jobs changes those jobs alone. -/
theorem job?_stop (c : Crew) (numbers : List Nat) (m : Nat) :
    (c.stop numbers).job? m =
      (c.job? m).map fun j => if numbers.contains m then j.stop else j :=
  job?_edit Job.stop (fun _ => rfl) m

end

end Crew

/-! ## Jobs and the supervisor -/

namespace Supervisor

variable {σ : Type}

/-- The numbers of a watch's jobs that are under way. -/
def pendingJobs (s : Supervisor σ) (i : Nat) : List Nat :=
  (s.watches[i]?).elim [] fun w => w.roster.pending

/-- The place that the check of a watch goes to. -/
def targetOf (s : Supervisor σ) (i : Nat) : Endpoint :=
  (s.watches.getD i default).target

variable {s : Supervisor σ} {i : Nat} {w : Watch}

/-- The jobs under way are those in the watch's roster. -/
theorem pendingJobs_eq (hw : s.watches[i]? = some w) : s.pendingJobs i = w.roster.pending := by
  rw [pendingJobs, hw]
  rfl

/-- The check goes to the watch's own target. -/
theorem targetOf_eq (hw : s.watches[i]? = some w) : s.targetOf i = w.target := by
  simp [targetOf, List.getD, hw]

end Supervisor

namespace Crew

variable {σ : Type}

/-- Schedules a job and gives its number. A retired watch takes none, and no job repeats without
time passing. -/
def schedule (c : Crew) (s : Supervisor σ) (rhythm : Rhythm) :
    Except JobError (Nat × Crew × Supervisor σ) :=
  if rhythm.hasZeroPeriod then .error .zeroPeriod
  else
    match s.enterJob c.watch with
    | none => .error (.rejected (s.targetOf c.watch))
    | some (number, s) => .ok (number, c.add number rhythm, s)

/-- The last step of a job ends. -/
def finish (c : Crew) (s : Supervisor σ) (number : Nat) : Crew × Supervisor σ :=
  (c.move number .over, s.releaseJob c.watch number)

/-- Has a job not run again and takes it out of the roster. -/
def cancel (c : Crew) (s : Supervisor σ) (number : Nat) : Crew × Supervisor σ :=
  (c.stop [number], s.releaseJob c.watch number)

/-- The end of the watch, which stops the jobs under way. -/
def retire [Strategy σ] (c : Crew) (s : Supervisor σ) : Option (Crew × Supervisor σ) :=
  (s.retire c.watch).map fun t => (c.stop (s.pendingJobs c.watch), t)

end Crew

end HealthWatch
