import HealthWatch.Simulation.Tasks

/-!
# Scenarios

A scenario builds groups, one after the other, and then takes steps. What it shows is a view of
every group after it was built, and after every step the step's reply and a view of every group.
-/

set_option autoImplicit false

namespace HealthWatch.Simulation

/-! ## Building groups -/

/-- What happens to a file source after it has started. -/
inductive Aftermath where
  | removed
  | closed
  | rewritten (bytes : ByteArray)

/-- Where a planned group's candidates come from. -/
inductive SourcePlan where
  /-- A feed, with endpoints from the start or without; the scenario may be able to set them. -/
  | feed (endpoints : Option (List Endpoint)) (settable : Bool)
  /-- A file, written with these bytes if there are any. -/
  | file (path : String) (bytes : Option ByteArray) (aftermath : Option Aftermath)
  /-- A group built before. -/
  | group (index : Nat)

/-- How a group of the scenario is set up. -/
structure GroupPlan where
  source : SourcePlan
  builder : Builder := {}
  /-- The scores that the watches on an endpoint report while they are begun, one each. -/
  greetings : List (Endpoint × List Float) := []
  manners : List (Endpoint × Manner) := []
  /-- Is the group built by a task, so that steps can be taken while the build waits? -/
  byTask : Bool := true

/-- The score that a watch on an endpoint begins with, given the watches begun before. -/
def GroupPlan.greeting (p : GroupPlan) (earlier : List Endpoint) (e : Endpoint) : List Call :=
  let score := ((p.greetings.reverse.lookup e).getD [])[earlier.count e]?
  score.toList.map (Call.report earlier.length)

/-- Starts the source of a group. -/
def startSource : SourcePlan → Sim (Except SourceError Source)
  | .feed none _ => return .ok (.feed Feed.empty)
  | .feed (some endpoints) _ => return .ok (.feed (Feed.ofList endpoints))
  | .group j => return .ok (.group j)
  | .file path bytes aftermath => do
    let name := FilePath.ofText path
    match bytes with
    | some bytes => modify fun w => { w with files := w.files.write name bytes }
    | none => pure ()
    match FileFeed.start (← get).files path with
    | .error error => return .error error
    | .ok feed =>
      match aftermath with
      | none => return .ok (.file feed)
      | some .closed => return .ok (.file feed.close)
      | some .removed =>
        modify fun w => { w with files := w.files.remove name }
        return .ok (.file feed)
      | some (.rewritten bytes) =>
        modify fun w => { w with files := w.files.write name bytes }
        return .ok (.file feed)

/-- Can the scenario set the endpoints of this source? -/
def SourcePlan.settable : SourcePlan → Bool
  | .feed _ settable => settable
  | _ => false

/-- Builds a group as far as it goes without waiting. -/
def addGroup (p : GroupPlan) : Sim Unit := do
  match ← startSource p.source with
  | .error error => modify fun w => { w with failure := some (.source error) }
  | .ok source =>
    match p.builder.build p.greeting with
    | .error error => modify fun w => { w with failure := some (.build error) }
    | .ok supervisor =>
      let g := (← get).cells.size
      modify fun w => { w with
        cells := w.cells.push
          { supervisor := supervisor
            source := source
            settable := p.source.settable
            manners := p.manners } }
      addEar g
      if p.byTask then
        let _ ← spawn (.build g)
      else
        startGroup g
        finishBuild g
      runAll

/-! ## Steps -/

/-- A watch of a group: the newest on an endpoint, or the one begun after `nth` others on it. -/
structure WatchRef where
  origin : Endpoint
  nth : Option Nat := none

/-- A step of a scenario, taken on one group. -/
inductive Step where
  | report (watch : WatchRef) (score : Float)
  | inspect (watch : WatchRef)
  /-- Do all delays that the watch can be given lie between two bounds? -/
  | delayWithin (watch : WatchRef) (low high : Int64)
  | describe (watch : WatchRef)
  | schedule (watch : WatchRef) (assignment : Assignment)
  | probe (watch : WatchRef) (label : String)
  | closeProbe (label : String)
  | cancel (label : String)
  | isFinished (label : String)
  | advance (millis : Nat)
  | nothing
  | set (endpoints : List Endpoint)
  | reload (bytes : ByteArray)
  | closeSource
  | isSourceClosed
  | drop
  | listen
  | isHealthy (endpoint : Endpoint)
  | initial
  | display
  /-- Closes the group this many times at once. -/
  | close (times : Nat)
  | closeLater

/-- What a step says of a watch. -/
structure WatchFacts where
  origin : Endpoint
  target : Endpoint
  scheme : Scheme
  delay : Except JobError Nat

/-- What comes of a step. -/
inductive Reply where
  | done
  | flag (value : Bool)
  | millis (value : Nat)
  | text (value : String)
  | texts (values : List String)
  | endpoints (values : List Endpoint)
  | facts (value : WatchFacts)
  | refused (error : JobError)
  | failed (error : SourceError)

/-- The watch that a step means. -/
def WatchRef.find (r : WatchRef) (s : Supervisor Policy) : Option (Nat × Watch) :=
  let watches := s.watches.zipIdx.filter (fun entry => entry.1.origin == r.origin)
  let found := match r.nth with
    | none => watches.getLast?
    | some nth => watches[nth]?
  found.map (fun entry => (entry.2, entry.1))

/-- Schedules a job of a watch, and its first run. -/
def schedule (g watch : Nat) (a : Assignment) : Sim Reply := do
  let some c ← cell? g | return .done
  match (c.crew watch).schedule c.supervisor a.rhythm with
  | .error error => return .refused error
  | .ok (id, crew, supervisor) =>
    setCrew g crew
    modifySupervisor g fun _ => supervisor
    let _ ← spawn (.job g watch id a .fresh)
    modify fun w => { w with jobLabels := (a.label, g, watch, id) :: w.jobLabels }
    return .done

/-- Does something with a watch of a group, if there is such a one. -/
def stepOnWatch (g : Nat) (r : WatchRef) (act : Supervisor Policy → Nat → Watch → Sim Reply) :
    Sim Reply := do
  let some c ← cell? g | return .text "no context"
  match r.find c.supervisor with
  | none => return .text "no context"
  | some (i, watch) => act c.supervisor i watch

/-- A step on a group that is built and not dropped. -/
def stepOnGroup (g : Nat) (act : Supervisor Policy → Sim Reply) : Sim Reply := do
  let some c ← cell? g | return .text "no group"
  if c.phase = .held then act c.supervisor else return .text "no group"

/-- Takes a step on a group, as far as it goes without waiting for tasks. -/
def take (g : Nat) : Step → Sim Reply
  | .report r score => stepOnWatch g r fun _ i _ => do
    report g i score
    return .done
  | .inspect r => stepOnWatch g r fun s _ watch =>
    return .facts
      { origin := watch.origin
        target := watch.target
        scheme := s.terms.scheme
        delay := s.nextDelay watch }
  | .delayWithin r low high => stepOnWatch g r fun s _ _ =>
    return .flag (0 ≤ s.terms.backoff.lowest 1 && s.terms.backoff.within 1 low high)
  | .describe r => stepOnWatch g r fun s _ watch => return .text (s.watchDescription watch)
  | .schedule r a => stepOnWatch g r fun _ i _ => schedule g i a
  | .probe r label => stepOnWatch g r fun _ i _ => do
    let handle ← openProbe g i
    modify fun w => { w with probeLabels := (label, handle) :: w.probeLabels }
    return .done
  | .closeProbe label => do
    match (← get).probeLabels.lookup label with
    | none => return .text "no probe"
    | some handle =>
      closeProbe handle
      return .flag true
  | .cancel label => do
    match (← get).jobLabels.lookup label with
    | none => return .text "no task"
    | some (j, watch, id) =>
      onCrew j watch fun crew s => crew.cancel s id
      return .done
  | .isFinished label => do
    let w ← get
    match w.jobLabels.lookup label with
    | none => return .text "no task"
    | some (j, watch, id) =>
      return .flag ((w.cells[j]?).all fun c => (c.crew watch).finished id)
  | .advance millis => do
    advance millis
    return .done
  | .nothing => return .done
  | .set endpoints => do
    let some c ← cell? g | return .done
    match c.source, c.settable with
    | .feed f, true =>
      modifyCell g fun c => { c with source := .feed (f.announce endpoints) }
      tell (f.audience endpoints) endpoints
      return .flag (f.accepts endpoints)
    | _, _ => return .done
  | .reload bytes => do
    let some c ← cell? g | return .done
    match c.source with
    | .file f =>
      modify fun w => { w with files := w.files.write (FilePath.ofText f.path) bytes }
      match f.reload (← get).files with
      | .error error => return .failed error
      | .ok (audience, reloaded) =>
        modifyCell g fun c => { c with source := .file reloaded }
        tell audience reloaded.feed.current
        return .done
    | _ => return .done
  | .closeSource => do
    let some c ← cell? g | return .done
    match c.source with
    | .feed f => modifyCell g fun c => { c with source := .feed f.close }
    | .file f => modifyCell g fun c => { c with source := .file f.close }
    | .group j =>
      let _ ← closeAndWait 1 j
      pure ()
    return .done
  | .isSourceClosed => do
    let some c ← cell? g | return .done
    match c.source, c.settable with
    | .feed f, true => return .flag f.closed
    | _, _ => return .done
  | .drop => do
    modifyCell g fun c => { c with phase := .dropped }
    modify fun w => { w with tasks := w.tasks.filter fun entry =>
      match entry.2 with
      | .build j => j != g
      | _ => true }
    dropUnheld
    return .done
  | .listen => stepOnGroup g fun _ => do
    addEar g
    return .done
  | .isHealthy e => stepOnGroup g fun s => return .flag (s.health.isHealthy e)
  | .initial => stepOnGroup g fun s => return .endpoints s.endpoints
  | .display => stepOnGroup g fun s => return .texts [s.description, s.description]
  | .close times => stepOnGroup g fun _ => do
    return .millis (← closeAndWait times g)
  | .closeLater => stepOnGroup g fun _ => do
    let _ ← spawn (.close [] g .entering [])
    return .done

/-! ## Views -/

/-- The state of a group that is built and not dropped. -/
structure GroupState where
  endpoints : List Endpoint
  candidates : List Endpoint
  /-- The endpoints with a watch in force, in the order of endpoints. -/
  checked : List Endpoint
  snapshot : HealthSnapshot
  closed : Bool

/-- What can be seen of a group: what happened since the last view, and how it stands. -/
structure View where
  /-- The watches begun, with the places their checks go to. -/
  created : List (Endpoint × Endpoint)
  /-- A line on every watch so far. -/
  watches : List String
  /-- The endpoints whose handles were closed, in the order of texts. -/
  closes : List String
  /-- The reports that the group's own strategy was told, in the order of texts. -/
  told : List String
  /-- The runs of jobs, by moment and label. -/
  runs : List (Nat × String)
  heard : List (List (List Endpoint))
  phase : Phase
  /-- How the group stands, if it is built and not dropped. -/
  state : Option GroupState

/-- Texts in ascending order. -/
def sortTexts (texts : List String) : List String :=
  texts.mergeSort (fun a b => decide (a ≤ b))

/-- What is shown of a supervisor. -/
def stateOf (s : Supervisor Policy) : GroupState :=
  { endpoints := s.endpoints
    candidates := s.candidates
    checked := s.checked.mergeSort Endpoint.le
    snapshot := s.snapshot
    closed := s.closed }

/-- A view of a group; what it shows has been shown then. -/
def view (g : Nat) : Sim (Option View) := do
  let some c ← cell? g | return none
  let s := c.supervisor
  let told := s.strategy.told
  let w ← get
  let shown : View :=
    { created := (s.watches.drop c.shownWatches).map (fun watch => (watch.origin, watch.target))
      watches := s.watches.map Watch.summary
      closes := sortTexts (c.closes.map Endpoint.authority)
      told := sortTexts ((told.drop c.shownTold).map
        (fun report => report.1.authority ++ " " ++ Decimal.plainText report.2))
      runs := c.runs.mergeSort (fun a b => decide (a.1 < b.1 ∨ (a.1 = b.1 ∧ a.2 ≤ b.2)))
      heard := c.ears.map (fun k => w.heard.getD k [])
      phase := c.phase
      state := if c.phase = .held then some (stateOf s) else none }
  modifyCell g fun c => { c with
    closes := []
    runs := []
    shownWatches := s.watches.length
    shownTold := told.length }
  for k in c.ears do
    modify fun w => { w with heard := w.heard.setIfInBounds k [] }
  return some shown

/-- What is shown of all groups. -/
def views : Sim (List View) := do
  let mut shown := []
  for g in List.range (← get).cells.size do
    match ← view g with
    | some v => shown := shown ++ [v]
    | none => pure ()
  return shown

/-- What a step shows: its reply, the moment it ended, and a view of every group. -/
structure StepOutcome where
  reply : Reply
  now : Nat
  views : List View

/-- Takes a step, lets all tasks run until they wait, and looks. -/
def takeStep (g : Nat) (step : Step) : Sim StepOutcome := do
  let reply ← take g step
  runAll
  let shown ← views
  return { reply := reply, now := (← get).now, views := shown }

/-- Builds the groups, with a view of each right after it was built. -/
def buildAll : List GroupPlan → Sim (List View)
  | [] => return []
  | p :: rest => do
    addGroup p
    let w ← get
    if w.failure.isSome then return []
    let first ← view (w.cells.size - 1)
    return first.toList ++ (← buildAll rest)

/-- Runs a scenario: the groups, and the steps with the groups they are taken on. One that never
comes to an end shows nothing. -/
def run (plans : List GroupPlan) (steps : List (Nat × Step)) :
    Except Failure (List View × List StepOutcome) :=
  let program : Sim (List View × List StepOutcome) := do
    let first ← buildAll plans
    if (← get).failure.isSome then return (first, [])
    let mut outcomes := []
    for (g, step) in steps do
      outcomes := outcomes ++ [← takeStep g step]
    return (first, outcomes)
  match program.run {} with
  | none => .ok ([], [])
  | some (outcome, w) =>
    match w.failure with
    | some failure => .error failure
    | none => .ok outcome

end HealthWatch.Simulation
