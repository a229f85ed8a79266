import HealthWatch.Simulation.World

/-!
# Tasks at work

What each kind of task does when it runs, up to the point where it has to wait. A task that is not
over is put back with what it is to do next.
-/

set_option autoImplicit false

namespace HealthWatch.Simulation

/-- Puts a task back with what it is to do next. -/
def keep (task : Nat) (work : Work) : Sim Unit :=
  modify fun w => { w with tasks := w.tasks ++ [(task, work)] }

/-- Puts a task back to wait for a moment. -/
def keepUntil (task due : Nat) (work : Work) : Sim Unit := do
  keep task work
  waitUntil task due

/-! ## Building -/

/-- Subscribes a group to its source and offers it the first candidates. The watches then in force
are those that the build waits for. -/
def startGroup (g : Nat) : Sim Unit := do
  let listener ← enrol (.group g)
  subscribeToSource g listener
  match ← sourceInitial g with
  | .error error =>
    modify fun w => { w with failure := w.failure <|> some (.build (.source error)) }
  | .ok initial =>
    operate g fun s => s.offer initial
    act g
    modifyCell g fun c => { c with barrier := c.supervisor.barrier }

/-- Opens a group's publishing if all watches that the build waits for have reported. -/
def finishBuild (g : Nat) : Sim Unit := do
  let some c ← cell? g | return
  if c.phase = .building && c.supervisor.allReported c.barrier then
    modifyCell g fun c => { c with phase := .held }
    modifySupervisor g fun s => s.finishStartup
    act g

/-- Builds a group, as far as it can be done now. -/
def runBuild (task g : Nat) : Sim Unit := do
  let some c ← cell? g | return
  if c.builder.isNone then
    modifyCell g fun c => { c with builder := some task }
    startGroup g
  if (← get).failure.isNone then
    finishBuild g
    let some c ← cell? g | return
    if c.phase = .building then keep task (.build g)

/-! ## Ending watches -/

/-- Ends a watch: closes its handle, and retires it when that is done. -/
def runEnding (task g watch : Nat) (closed : Option Nat) : Sim Unit := do
  let now := (← get).now
  match closed with
  | none =>
    match ← closeHandle g watch with
    | none => retire g watch
    | some time =>
      if time = 0 then retire g watch
      else keepUntil task (now + time) (.ending g watch (some (now + time)))
  | some due =>
    if due ≤ now then retire g watch else keepUntil task due (.ending g watch closed)

/-! ## Jobs -/

/-- Notes that a job has run. -/
def noteRun (g : Nat) (label : String) : Sim Unit := do
  let now := (← get).now
  modifyCell g fun c => { c with runs := c.runs ++ [(now, label)] }

/-- Has the crew of a watch and its supervisor do something. -/
def onCrew (g watch : Nat) (f : Crew → Supervisor Policy → Crew × Supervisor Policy) :
    Sim Unit := do
  let some c ← cell? g | return
  let (crew, supervisor) := f (c.crew watch) c.supervisor
  setCrew g crew
  modifySupervisor g fun _ => supervisor

/-- Puts a job back to wait for a moment. -/
def pauseUntil (task g watch id due : Nat) (work : Work) : Sim Unit := do
  modifyCrew g watch fun crew => crew.pause id
  keepUntil task due work

/-- Runs a job until it waits or is over. -/
def runJob (task g watch id : Nat) (a : Assignment) : JobStage → Nat → Sim Unit
  | _, 0 => return
  | .fresh, fuel + 1 => do
    let now := (← get).now
    match a.rhythm with
    | .once none => runJob task g watch id a (.before now) fuel
    | .once (some delay) => runJob task g watch id a (.before (now + delay)) fuel
    | .fixedRate initial _ => runJob task g watch id a (.before (now + initial)) fuel
    | .fixedDelay initial _ => runJob task g watch id a (.before (now + initial)) fuel
  | .before due, fuel + 1 => do
    let now := (← get).now
    if due ≤ now then
      noteRun g a.label
      runJob task g watch id a (.during due (now + a.take.getD 0)) fuel
    else pauseUntil task g watch id due (.job g watch id a (.before due))
  | .during due ends, fuel + 1 => do
    let now := (← get).now
    if ends ≤ now then
      if a.take.isSome then noteRun g (a.label ++ " end")
      match a.report with
      | some score => report g watch score
      | none => pure ()
      match a.rhythm with
      | .once _ => onCrew g watch fun crew s => crew.finish s id
      | .fixedRate _ period => runJob task g watch id a (.before (due + period)) fuel
      | .fixedDelay _ delay => runJob task g watch id a (.before (now + delay)) fuel
    else pauseUntil task g watch id ends (.job g watch id a (.during due ends))

/-! ## Probing -/

/-- Takes a probing job that is over out of its roster. -/
def leaveProbe (g watch id handle : Nat) : Sim Unit := do
  let some p ← prober? handle | return
  let some c ← cell? g | return
  let (p, supervisor) := p.leave c.supervisor id
  setProber g handle p supervisor
  modifyCrew g watch fun crew => crew.move id .over

/-- Has the next job follow one that has reported. -/
def followProbe (g watch id handle : Nat) : Sim Unit := do
  let some p ← prober? handle | return
  let some c ← cell? g | return
  let (next, p, supervisor) := p.follow c.supervisor id (c.supervisor.terms.backoff.delay 1)
  setProber g handle p supervisor
  match next with
  | none => return
  | some (next, delay) =>
    modifyCrew g watch fun crew => crew.add next (.once (some delay))
    let _ ← spawn (.probe g watch next handle (.turn (some delay)))

/-- What a job does when its connection has failed. -/
def finishProbe (g watch id handle : Nat) : Sim Unit := do
  let some p ← prober? handle | return
  let some c ← cell? g | return
  let (p, supervisor) ← p.conclude c.supervisor id false
  setProber g handle p supervisor
  if p.stage? id = some .told then
    act g
    wakeBuilder g watch
    followProbe g watch id handle
  leaveProbe g watch id handle

/-- Begins a connection, unless the handle is closed. -/
def connect (task g watch id handle : Nat) : Sim Unit := do
  let some p ← prober? handle | return
  let p := p.wake id
  modify fun w => { w with probers := w.probers.setIfInBounds handle p }
  if p.stage? id = some .probing then
    modifyCrew g watch fun crew => crew.pause id
    keep task (.probe g watch id handle .connection)
    modify fun w => { w with connecting := w.connecting ++ [task] }
  else leaveProbe g watch id handle

/-- Runs a probing job until it waits or is over. -/
def runProbe (task g watch id handle : Nat) (wait : ProbeWait) : Sim Unit := do
  let now := (← get).now
  match wait with
  | .turn none => connect task g watch id handle
  | .turn (some delay) =>
    if delay = 0 then connect task g watch id handle
    else pauseUntil task g watch id (now + delay) (.probe g watch id handle (.moment (now + delay)))
  | .moment due =>
    if due ≤ now then connect task g watch id handle
    else pauseUntil task g watch id due (.probe g watch id handle wait)
  | .connection => finishProbe g watch id handle

/-! ## Closing -/

/-- Retires the watches whose handles are closed by now, and gives the others. -/
def retireDue (g : Nat) (pending : List (Nat × Nat)) : Sim (List (Nat × Nat)) := do
  let now := (← get).now
  for (watch, due) in pending do
    if due ≤ now then retire g watch
  return pending.filter (fun entry => now < entry.2)

/-- Closes the handles of watches. Those that take no time are retired at once, and the task waits
for the others. -/
def closeHandles (task g : Nat) (watches : List Nat) : Sim (List (Nat × Nat)) := do
  let now := (← get).now
  let mut pending := []
  for watch in watches do
    match ← closeHandle g watch with
    | none | some 0 => retire g watch
    | some time =>
      pending := pending ++ [(watch, now + time)]
      waitUntil task (now + time)
  return pending

/-- Lets everyone who waits for a group to be closed look again. -/
def wakeClosers : Sim Unit := do
  for (task, work) in (← get).tasks do
    match work with
    | .close _ _ .awaiting _ => wake task
    | _ => pure ()

/-- Goes on closing until it waits or is over. `outer` are the groups that wait for the one in
hand as their source. -/
def runClose (task : Nat) : List Nat → Nat → CloseStage → List (Nat × Nat) → Nat → Sim Unit
  | _, _, _, _, 0 => return
  | outer, g, stage, pending, fuel + 1 => do
    let pending ← retireDue g pending
    let some c ← cell? g | return
    match c.supervisor.closeTurn stage with
    | none => keep task (.close outer g stage pending)
    | some (stage, supervisor) =>
      modifySupervisor g fun _ => supervisor
      match stage with
      | .stopping watches =>
        let pending ← closeHandles task g watches
        runClose task outer g stage pending fuel
      | .leaving =>
        match c.source with
        | .feed f =>
          modifyCell g fun c => { c with source := .feed f.close }
          runClose task outer g .left [] fuel
        | .file f =>
          modifyCell g fun c => { c with source := .file f.close }
          runClose task outer g .left [] fuel
        | .group j => runClose task (g :: outer) j .entering [] fuel
      | .over =>
        wakeClosers
        match outer with
        | [] => return
        | next :: rest => runClose task rest next .left [] fuel
      | _ => runClose task outer g stage pending fuel

/-! ## Letting go -/

/-- The groups that a piece of work holds on to. -/
def Work.holds : Work → List Nat
  | .build g => [g]
  | .close outer g _ _ => g :: outer
  | _ => []

/-- Drops the groups that nobody holds on to: neither the scenario, nor a task that builds or
closes them, nor a group that has them for a source. -/
def dropUnheld : Sim Unit := do
  let size := (← get).cells.size
  for i in List.range size do
    let g := size - 1 - i
    let some c ← cell? g | continue
    let w ← get
    let held := c.phase = .held || w.tasks.any (fun task => task.2.holds.contains g) ||
      w.cells.any (fun d => !d.supervisor.abandoned &&
        match d.source with
        | .group j => j == g
        | _ => false)
    if !held && c.phase ≠ .building && !c.supervisor.abandoned then
      modifySupervisor g fun s => s.abandon
      act g

/-! ## The queue -/

/-- How many turns a task may take before it has to wait. -/
def patience : Nat := 1000

/-- Runs a task that is due. -/
def runTask (task : Nat) : Sim Unit := do
  let w ← get
  let alive := w.alive task
  set { w with tasks := w.tasks.filter (fun entry => entry.1 != task) }
  match w.tasks.lookup task with
  | none => return
  | some work =>
    if alive then
      match work with
      | .build g => runBuild task g
      | .ending g watch closed => runEnding task g watch closed
      | .job g watch id a stage =>
        modifyCrew g watch fun crew => crew.start id
        runJob task g watch id a stage patience
      | .probe g watch id handle wait =>
        modifyCrew g watch fun crew => crew.start id
        runProbe task g watch id handle wait
      | .close outer g stage pending =>
        runClose task outer g stage pending patience
        dropUnheld

/-- Runs tasks until all of them wait. Connections fail when nothing else can run. -/
def runQueue : Nat → Sim Unit
  | 0 => return
  | fuel + 1 => do
    let w ← get
    match w.queue with
    | task :: rest =>
      set { w with queue := rest }
      runTask task
      runQueue fuel
    | [] =>
      if w.connecting.isEmpty then return
      set { w with queue := w.connecting, connecting := [] }
      runQueue fuel

/-- A bound on the tasks run in one go. -/
def manyTurns : Nat := 1000000

/-- Runs tasks until all of them wait. -/
def runAll : Sim Unit :=
  runQueue manyTurns

/-! ## The clock -/

/-- The next moment that a task still waits for. -/
def World.nextMoment (w : World) : Option Nat :=
  ((w.timers.filter (fun timer => w.alive timer.2)).map Prod.fst).min?

/-- Moves the clock to a moment and lets the tasks run that waited for it, those in `first` before
the others. -/
def fire (first : List Nat) (moment : Nat) : Sim Unit := do
  let w ← get
  let due := (w.timers.filter (fun timer => timer.1 ≤ moment)).map Prod.snd
  set { w with now := moment, timers := w.timers.filter (fun timer => moment < timer.1) }
  for task in due.filter first.contains do wake task
  for task in due do wake task
  runAll

/-- Moves the clock to a moment, stopping at every moment before it that a task waits for. -/
def advanceTo (target : Nat) : Nat → Sim Unit
  | 0 => return
  | fuel + 1 => do
    let w ← get
    match w.nextMoment with
    | some moment =>
      if moment ≤ target then
        fire [] moment
        advanceTo target fuel
      else set { w with now := target }
    | none => set { w with now := target }

/-- Lets a number of milliseconds pass. -/
def advance (millis : Nat) : Sim Unit := do
  advanceTo ((← get).now + millis) manyTurns

/-- Runs until some tasks are over, moving the clock on whenever all others wait. -/
def runUntilOver (tasks : List Nat) : Nat → Sim Unit
  | 0 => return
  | fuel + 1 => do
    runAll
    let w ← get
    if w.tasks.any (fun entry => tasks.contains entry.1) then
      match w.nextMoment with
      | some moment =>
        fire tasks moment
        runUntilOver tasks fuel
      | none => return
    else return

/-- Closes a group as often at once as told and waits until all of that is done; gives the time it
took. -/
def closeAndWait (times g : Nat) : Sim Nat := do
  let start := (← get).now
  let mut tasks := []
  for _ in List.range times do
    let task ← spawn (.close [] g .entering [])
    tasks := tasks ++ [task]
  runUntilOver tasks manyTurns
  return (← get).now - start

end HealthWatch.Simulation
