import HealthWatch.Crew
import HealthWatch.Prober
import HealthWatch.Supervisor.Builder
import HealthWatch.Supervisor.Closing

/-!
# The world of a scenario

Supervisors in a world of their own: sources that are feeds, files or other supervisors, checks
whose handles take time to close, jobs that repeat, and a clock that moves only when told to.

Work is done by tasks. A task runs until it waits for something; the tasks that can run stand in a
queue, first come, first served, and those that wait for a moment are entered with it among the
timers. This module holds the state of the world and what can be done to it in no time.
-/

set_option autoImplicit false

namespace HealthWatch.Simulation

/-- How an endpoint's check behaves. -/
structure Manner where
  /-- Closing its handle is noted. -/
  noted : Bool := true
  /-- How many milliseconds closing its handle takes. -/
  slow : Option Nat := none
  /-- It probes the endpoint, which fails at once every time. -/
  probes : Bool := false
deriving Repr, Inhabited

/-- A job of a scenario: each run notes its label, may take time, and may report a score. -/
structure Assignment where
  label : String
  rhythm : Rhythm
  take : Option Nat := none
  report : Option Float := none
deriving Repr

/-- How far a job has come. -/
inductive JobStage where
  | fresh
  /-- Before the run that is due at a moment. -/
  | before (due : Nat)
  /-- In the run that was due at a moment and takes until another. -/
  | during (due ends : Nat)
deriving Repr

/-- What a probing job waits for. -/
inductive ProbeWait where
  /-- Its first turn, and then a delay if one is given. -/
  | turn (delay : Option Nat)
  /-- The end of its delay. -/
  | moment (due : Nat)
  | connection
deriving Repr

/-- What a task does. -/
inductive Work where
  | build (group : Nat)
  /-- Ending a watch that was let go; `closed` is the moment its handle is closed. -/
  | ending (group watch : Nat) (closed : Option Nat)
  | job (group watch id : Nat) (assignment : Assignment) (stage : JobStage)
  | probe (group watch id handle : Nat) (wait : ProbeWait)
  /-- Closing a group. The groups in `outer` wait for it as their source, the innermost first, and
  `pending` are the watches whose handles are still closing, with the moment they are closed. -/
  | close (outer : List Nat) (group : Nat) (stage : CloseStage) (pending : List (Nat × Nat))
deriving Repr

/-- Where a group's candidates come from. -/
inductive Source where
  | feed (feed : Feed)
  | file (feed : FileFeed)
  | group (index : Nat)
deriving Repr

/-- How far a group has come. -/
inductive Phase where
  | building
  | held
  | dropped
deriving Repr, DecidableEq

/-- A supervisor in the world. -/
structure Cell where
  supervisor : Supervisor Policy
  source : Source
  /-- Can the scenario set the source's endpoints? -/
  settable : Bool := false
  phase : Phase := .building
  /-- The watches that the build waits for. -/
  barrier : List Nat := []
  /-- The task that builds the group. -/
  builder : Option Nat := none
  manners : List (Endpoint × Manner) := []
  /-- The crews of the watches that a job was scheduled with. -/
  crews : List Crew := []
  handles : List (Nat × Nat) := []
  /-- The endpoints whose handles were closed, noted since the last view. -/
  closes : List Endpoint := []
  /-- The runs noted since the last view. -/
  runs : List (Nat × String) := []
  /-- The listeners that the scenario has put on the group. -/
  ears : List Nat := []
  /-- How many watches and how many told reports earlier views have shown. -/
  shownWatches : Nat := 0
  shownTold : Nat := 0

/-- What a listener's number stands for. -/
inductive Hearer where
  | ear (index : Nat)
  | group (index : Nat)
deriving Repr

/-- Why a scenario's groups cannot be built. -/
inductive Failure where
  /-- A source does not start. -/
  | source (error : SourceError)
  | build (error : BuildError)
deriving Repr

/-- All there is in a scenario. -/
structure World where
  now : Nat := 0
  files : Files := {}
  cells : Array Cell := #[]
  hearers : Array Hearer := #[]
  /-- The lists that each ear heard since the last view. -/
  heard : Array (List (List Endpoint)) := #[]
  tasks : List (Nat × Work) := []
  nextTask : Nat := 0
  /-- The tasks that can run. -/
  queue : List Nat := []
  /-- The tasks that wait for a moment, in the order in which they began to. -/
  timers : List (Nat × Nat) := []
  /-- The tasks that wait for a connection to fail. -/
  connecting : List Nat := []
  /-- The probing checks, each by the number of its handle. -/
  probers : Array Prober := #[]
  /-- Labelled jobs: group, watch and number. -/
  jobLabels : List (String × Nat × Nat × Nat) := []
  /-- Labelled probe handles. -/
  probeLabels : List (String × Nat) := []
  /-- The first thing that failed while the groups were built. -/
  failure : Option Failure := none

/-- A computation in the world. One in which a supervisor's passes never come to an end gives
nothing. -/
abbrev Sim := StateT World Option

/-! ## Cells -/

/-- The cell of a group. -/
def cell? (g : Nat) : Sim (Option Cell) := do
  return (← get).cells[g]?

/-- Changes the cell of a group. -/
def modifyCell (g : Nat) (f : Cell → Cell) : Sim Unit :=
  modify fun w => { w with cells := w.cells.modify g f }

/-- Changes the supervisor of a group. -/
def modifySupervisor (g : Nat) (f : Supervisor Policy → Supervisor Policy) : Sim Unit :=
  modifyCell g fun c => { c with supervisor := f c.supervisor }

/-- Has the supervisor of a group do something that may make passes. -/
def operate (g : Nat) (f : Supervisor Policy → Option (Supervisor Policy)) : Sim Unit := do
  let some c ← cell? g | return
  let supervisor ← f c.supervisor
  modifySupervisor g fun _ => supervisor

/-- How the check of a watch behaves. -/
def Cell.mannerOf (c : Cell) (watch : Nat) : Manner :=
  match c.supervisor.watches[watch]? with
  | none => {}
  | some w => (c.manners.reverse.lookup w.origin).getD {}

/-- The crew of a watch. -/
def Cell.crew (c : Cell) (watch : Nat) : Crew :=
  (c.crews.find? (·.watch == watch)).getD { watch := watch }

/-- Puts the crew of a watch in a new state. -/
def setCrew (g : Nat) (crew : Crew) : Sim Unit :=
  modifyCell g fun c => { c with crews := crew :: c.crews.filter (·.watch != crew.watch) }

/-- Changes the crew of a watch. -/
def modifyCrew (g watch : Nat) (f : Crew → Crew) : Sim Unit := do
  let some c ← cell? g | return
  setCrew g (f (c.crew watch))

/-! ## Tasks -/

/-- Lets a task run, unless it is going to anyway. -/
def wake (task : Nat) : Sim Unit :=
  modify fun w => if w.queue.contains task then w else { w with queue := w.queue ++ [task] }

/-- Adds a task that can run, and gives its number. -/
def spawn (work : Work) : Sim Nat := do
  let w ← get
  set { w with
    tasks := w.tasks ++ [(w.nextTask, work)]
    nextTask := w.nextTask + 1
    queue := w.queue ++ [w.nextTask] }
  return w.nextTask

/-- Lets a task wait for a moment. -/
def waitUntil (task due : Nat) : Sim Unit :=
  modify fun w => { w with timers := w.timers ++ [(due, task)] }

/-- Is there still something for a task to do? A job that is stopped is not run again. -/
def World.alive (w : World) (task : Nat) : Bool :=
  match w.tasks.lookup task with
  | none => false
  | some (.job g watch id _ _) | some (.probe g watch id _ _) =>
    (w.cells[g]?).any fun c => (c.crew watch).ready id
  | some _ => true

/-! ## Probing -/

/-- The probing check with a handle. -/
def prober? (handle : Nat) : Sim (Option Prober) := do
  return (← get).probers[handle]?

/-- Puts a probing check and its group's supervisor in a new state. -/
def setProber (g handle : Nat) (p : Prober) (supervisor : Supervisor Policy) : Sim Unit := do
  modify fun w => { w with probers := w.probers.setIfInBounds handle p }
  modifySupervisor g fun _ => supervisor

/-- Makes a probing check of a watch and starts its first job, unless the watch is retired. -/
def openProbe (g watch : Nat) : Sim Nat := do
  let handle := (← get).probers.size
  let some c ← cell? g | return handle
  let (job, p, supervisor) := Prober.create c.supervisor watch
  modify fun w => { w with probers := w.probers.push p }
  modifySupervisor g fun _ => supervisor
  match job with
  | none => pure ()
  | some id =>
    modifyCrew g watch fun crew => crew.add id (.once none)
    let _ ← spawn (.probe g watch id handle (.turn none))
  return handle

/-- Closes the handle of a probing check. -/
def closeProbe (handle : Nat) : Sim Unit :=
  modify fun w => { w with probers := w.probers.modify handle Prober.close }

/-! ## Effects -/

/-- Does what a group's supervisor has left in its outbox, in order; `tell` passes on a list. -/
def actWith (tell : List Listener → List Endpoint → Sim Unit) (g : Nat) : Sim Unit := do
  let some c ← cell? g | return
  let (effects, supervisor) := c.supervisor.takeOutbox
  modifySupervisor g fun _ => supervisor
  for effect in effects do
    match effect with
    | .began watch =>
      if (c.mannerOf watch).probes then
        let handle ← openProbe g watch
        modifyCell g fun c => { c with handles := c.handles ++ [(watch, handle)] }
    | .released watch =>
      let _ ← spawn (.ending g watch none)
    | .published endpoints audience => tell audience endpoints

/-- Tells listeners about a list. A group that has the teller for its source takes the list as its
candidates and may publish in turn; `fuel` bounds how far that goes on. -/
def tellWithin : Nat → List Listener → List Endpoint → Sim Unit
  | 0, _, _ => return
  | fuel + 1, audience, endpoints => do
    for listener in audience do
      match (← get).hearers[listener]? with
      | some (.ear k) => modify fun w => { w with heard := w.heard.modify k (· ++ [endpoints]) }
      | some (.group j) =>
        let some d ← cell? j | continue
        if !d.supervisor.abandoned then
          operate j fun s => s.offer endpoints
          actWith (tellWithin fuel) j
      | none => continue

/-- Tells listeners about a list. A list is passed on to newer groups only, so it goes no further
than there are groups. -/
def tell (audience : List Listener) (endpoints : List Endpoint) : Sim Unit := do
  tellWithin ((← get).cells.size + 1) audience endpoints

/-- Does what a group has left in its outbox, and what that calls for. -/
def act (g : Nat) : Sim Unit :=
  actWith tell g

/-- Lets the task that builds a group look again, if it waits for this watch. -/
def wakeBuilder (g watch : Nat) : Sim Unit := do
  let some c ← cell? g | return
  if c.phase = .building && c.barrier.contains watch then
    match c.builder with
    | some task => wake task
    | none => return

/-- A report of a watch. -/
def report (g watch : Nat) (score : Float) : Sim Unit := do
  operate g fun s => s.report watch score
  act g
  wakeBuilder g watch

/-- The end of a watch. -/
def retire (g watch : Nat) : Sim Unit := do
  let some c ← cell? g | return
  let (crew, supervisor) ← (c.crew watch).retire c.supervisor
  setCrew g crew
  modifySupervisor g fun _ => supervisor
  act g
  wakeBuilder g watch

/-- Closes the handle of a watch's check; gives the time that takes. -/
def closeHandle (g watch : Nat) : Sim (Option Nat) := do
  let some c ← cell? g | return none
  let some w := c.supervisor.watches[watch]? | return none
  let manner := c.mannerOf watch
  if manner.noted then
    modifyCell g fun c => { c with closes := c.closes ++ [w.origin] }
  match c.handles.lookup watch with
  | some handle => closeProbe handle
  | none => pure ()
  return manner.slow

/-! ## Listeners and sources -/

/-- Gives a hearer a listener's number. -/
def enrol (hearer : Hearer) : Sim Listener := do
  let listener := (← get).hearers.size
  modify fun w => { w with hearers := w.hearers.push hearer }
  return listener

/-- Puts a listener of the scenario on a group. -/
def addEar (g : Nat) : Sim Unit := do
  let k := (← get).heard.size
  modify fun w => { w with heard := w.heard.push [] }
  let listener ← enrol (.ear k)
  modifyCell g fun c => { c with
    ears := c.ears ++ [k]
    supervisor := c.supervisor.subscribe listener }

/-- Puts a listener on a group's source. -/
def subscribeToSource (g : Nat) (listener : Listener) : Sim Unit := do
  let some c ← cell? g | return
  match c.source with
  | .feed f => modifyCell g fun c => { c with source := .feed (f.subscribe listener) }
  | .file f =>
    modifyCell g fun c => { c with source := .file { f with feed := f.feed.subscribe listener } }
  | .group j =>
    modifySupervisor j fun s => s.subscribe listener

/-- The endpoints that a group starts from. -/
def sourceInitial (g : Nat) : Sim (Except SourceError (List Endpoint)) := do
  let some c ← cell? g | return .ok []
  match c.source with
  | .feed f => return .ok f.current
  | .file f => return f.initialEndpoints (← get).files
  | .group j =>
    let some d ← cell? j | return .ok []
    return .ok d.supervisor.endpoints

end HealthWatch.Simulation
