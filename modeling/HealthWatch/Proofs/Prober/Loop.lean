import HealthWatch.Proofs.Prober.Turns
import HealthWatch.Proofs.Supervisor.Replay
import HealthWatch.Proofs.Supervisor.Rosters
import HealthWatch.Strategy.Policy

/-!
# The loop of a probing check

A probing check and the supervisor of its watch, from the making of the check on. Results come and
turns come in any order, the handle is closed and the watch is retired at any time, and in between
the supervisor does whatever else it does. The backoff may give any delay. Between the report of a
job and the job that follows it, and between that and its leaving, everything else may happen; the
report itself and what it leads to is one step.

The check neither dies nor forks (`probe_loop_goes_on`).
-/

set_option autoImplicit false

namespace HealthWatch

open Prober (Act Turn Tidy Over Going Course OnCourse deeds)

/-- A probing check and the supervisor of its watch. -/
structure Probing (σ : Type) where
  supervisor : Supervisor σ
  prober : Prober

namespace Probing

variable {σ : Type}

/-- A check that has just been made. -/
def begin (s : Supervisor σ) (watch : Nat) : Probing σ :=
  let made := Prober.create s watch
  ⟨made.2.2, made.2.1⟩

/-- The jobs under way. -/
def pending (x : Probing σ) : List Nat :=
  (x.supervisor.watches[x.prober.watch]?).elim [] fun w => w.roster.pending

/-- Is the watch retired? -/
def retired (x : Probing σ) : Bool :=
  (x.supervisor.watches[x.prober.watch]?).any Watch.retired

/-- No job is in the middle of a step: each waits for its turn or for its probe. -/
def Resting (x : Probing σ) : Prop :=
  ∀ entry ∈ x.prober.jobs, entry.2 = .waiting ∨ entry.2 = .probing

variable [Strategy σ]

/-- One act and the states before and after it. -/
inductive Step (x : Probing σ) : Act → Probing σ → Prop where
  | outside {event : Supervisor.Event} {t : Supervisor σ} (h : Supervisor.Step x.supervisor event t)
      (hother : event.handlesJobsOf x.prober.watch = false) :
      Step x .outside { x with supervisor := t }
  | abandon : Step x .outside { x with supervisor := x.supervisor.abandon }
  | retire {t : Supervisor σ} (h : x.supervisor.retire x.prober.watch = some t) :
      Step x .retire { x with supervisor := t }
  | close : Step x .close { x with prober := x.prober.close }
  | wake {job : Nat} (hheld : x.supervisor.hasJob x.prober.watch job = true)
      (hstage : x.prober.stage? job = some .waiting) :
      Step x (.wake job) { x with prober := x.prober.wake job }
  | report {job : Nat} {healthy : Bool} {q : Prober} {t : Supervisor σ}
      (hheld : x.supervisor.hasJob x.prober.watch job = true)
      (hstage : x.prober.stage? job = some .probing) (hopen : x.prober.closed = false)
      (h : x.prober.conclude x.supervisor job healthy = some (q, t)) :
      Step x (.report job healthy) ⟨t, q⟩
  | discard {job : Nat} {healthy : Bool} {q : Prober} {t : Supervisor σ}
      (hheld : x.supervisor.hasJob x.prober.watch job = true)
      (hstage : x.prober.stage? job = some .probing) (hclosed : x.prober.closed = true)
      (h : x.prober.conclude x.supervisor job healthy = some (q, t)) :
      Step x (.discard job healthy) ⟨t, q⟩
  | follow {job : Nat} {delay : Int64} {next : Option (Nat × Nat)} {q : Prober} {t : Supervisor σ}
      (hstage : x.prober.stage? job = some .told)
      (h : x.prober.follow x.supervisor job delay = (next, q, t)) :
      Step x (.follow job delay (next.map Prod.fst)) ⟨t, q⟩
  | leave {job : Nat} (hstage : x.prober.stage? job = some .leaving) :
      Step x (.leave job)
        ⟨(x.prober.leave x.supervisor job).2, (x.prober.leave x.supervisor job).1⟩

/-- A sequence of acts, the latest last, from one state to another. -/
abbrev Run (x : Probing σ) : List Act → Probing σ → Prop :=
  HealthWatch.Run Step x

/-! ## Steps are turns -/

/-- The roster of the watch. -/
def HasRoster (x : Probing σ) (r : Roster) : Prop :=
  ∃ w, x.supervisor.watches[x.prober.watch]? = some w ∧ w.roster = r

/-- What holds at all times: no passes are under way, and the roster and the check are tidy. -/
structure Sound (x : Probing σ) (r : Roster) : Prop where
  atRest : x.supervisor.refreshing = false
  roster : x.HasRoster r
  tidy : Tidy r x.prober

end Probing

namespace Prober

variable {σ : Type} {p : Prober} {s : Supervisor σ} {w : Watch} {job : Nat}

/-- A job follows if the delay is not negative and the roster takes it in. -/
theorem follow_eq (hw : s.watches[p.watch]? = some w) (delay : Int64) :
    p.follow s job delay =
      match if delay < 0 then none else w.roster.enter with
      | none => (none, p.move job .leaving, s)
      | some (next, r) =>
        (some (next, delay.toInt.toNat), (p.move job .leaving).add next,
          s.modifyWatch p.watch fun w => { w with roster := r }) := by
  have hmoved : (p.move job .leaving).watch = p.watch := rfl
  by_cases hnegative : delay < 0
  · simp [follow, Watch.waitFor, hnegative, Except.toOption]
  · cases hentered : w.roster.enter <;>
      simp [follow, enter, Supervisor.enterJob_eq hw, hw, hmoved, Watch.waitFor, hnegative,
        Except.toOption, hentered]

variable [Strategy σ]

/-- A result that comes while the handle is open is reported, and its job has then told of it. -/
theorem conclude_of_open (hopen : p.closed = false) (healthy : Bool) :
    p.conclude s job healthy =
      (s.report p.watch (score healthy)).map fun t => (p.move job .told, t) := by
  rw [conclude, hopen, if_neg Bool.false_ne_true]
  cases s.report p.watch (score healthy) <;> rfl

/-- A result that comes after the handle was closed is dropped, and its job is about to leave. -/
theorem conclude_of_closed (hclosed : p.closed = true) (healthy : Bool) :
    p.conclude s job healthy = some (p.move job .leaving, s) := by
  rw [conclude, hclosed]
  rfl

end Prober

namespace Probing

variable {σ : Type} [Strategy σ] {x y : Probing σ} {act : Act} {r : Roster}

omit [Strategy σ] in
/-- A job that the supervisor has for the watch is in the roster. -/
theorem HasRoster.holds (hr : x.HasRoster r) {job : Nat}
    (hheld : x.supervisor.hasJob x.prober.watch job = true) : r.holds job = true := by
  obtain ⟨w, hw, rfl⟩ := hr
  simpa [Supervisor.hasJob, hw] using hheld

/-- What a step does to the check and to the roster of its watch is a turn of theirs. -/
theorem Step.effect (k : Step x act y) (hrest : x.supervisor.refreshing = false)
    (hr : x.HasRoster r) :
    y.supervisor.refreshing = false ∧ ∃ r', y.HasRoster r' ∧ Turn r x.prober act r' y.prober := by
  have hholds {job : Nat} (hheld : x.supervisor.hasJob x.prober.watch job = true) :=
    hr.holds hheld
  obtain ⟨w, hw, rfl⟩ := hr
  have hmodify (f : Watch → Watch) :
      (x.supervisor.modifyWatch x.prober.watch f).watches[x.prober.watch]? = some (f w) := by
    simp [Supervisor.modifyWatch, hw]
  cases k with
  | outside h hother =>
    obtain ⟨v, hv, hsame⟩ := h.roster hrest hother hw
    exact ⟨h.refreshing hrest, w.roster, ⟨v, hv, hsame⟩, .outside⟩
  | abandon =>
    unfold Supervisor.abandon
    split <;> exact ⟨hrest, w.roster, ⟨w, hw, rfl⟩, .outside⟩
  | retire h =>
    rcases Supervisor.roster_of_retire hrest hw h with ⟨hclosed, rfl⟩ | ⟨hidle, v, hv, hroster⟩
    · exact ⟨hrest, w.roster, ⟨w, hw, rfl⟩, .retired hclosed⟩
    · exact ⟨hidle, w.roster.close, ⟨v, hv, hroster⟩, .retire⟩
  | close => exact ⟨hrest, w.roster, ⟨w, hw, rfl⟩, .close⟩
  | wake hheld hstage => exact ⟨hrest, w.roster, ⟨w, hw, rfl⟩, .wake (hholds hheld) hstage⟩
  | @report job healthy _ _ hheld hstage hopen h =>
    rw [Prober.conclude_of_open hopen] at h
    obtain ⟨t, ht, heq⟩ := Option.map_eq_some_iff.mp h
    cases heq
    obtain ⟨v, hv, hroster⟩ := (Supervisor.carried_deliver hrest ht).roster hw
    exact ⟨(Supervisor.Steady.deliver hrest ht).refreshing.trans hrest, w.roster, ⟨v, hv, hroster⟩,
      .report healthy (hholds hheld) hstage hopen⟩
  | @discard job healthy _ _ hheld hstage hclosed h =>
    rw [Prober.conclude_of_closed hclosed] at h
    cases h
    exact ⟨hrest, w.roster, ⟨w, hw, rfl⟩, .discard healthy (hholds hheld) hstage hclosed⟩
  | @follow job delay next q t hstage h =>
    rw [Prober.follow_eq hw] at h
    split at h
    · rename_i hnone
      cases h
      refine ⟨hrest, w.roster, ⟨w, hw, rfl⟩, .stop hstage ?_⟩
      split at hnone
      · exact Or.inl ‹_›
      · exact Or.inr (Roster.enter_eq_none_iff.mp hnone)
    · rename_i number r hsome
      cases h
      split at hsome
      · cases hsome
      · exact ⟨hrest, r, ⟨_, hmodify _, rfl⟩, .follow hstage ‹_› hsome⟩
  | leave hstage => exact ⟨hrest, w.roster.release _, ⟨_, hmodify _, rfl⟩, .leave hstage⟩

/-- A step keeps the check sound, and is a turn of the check and the roster. -/
theorem Step.turn (k : Step x act y) (hx : x.Sound r) :
    ∃ r', y.Sound r' ∧ Turn r x.prober act r' y.prober := by
  obtain ⟨hrest, r', hr', hturn⟩ := k.effect hx.atRest hx.roster
  exact ⟨r', ⟨hrest, hr', hturn.tidy hx.tidy⟩, hturn⟩

/-! ## Runs -/

/-- What every turn keeps holds after every run. -/
theorem Run.keeps_turns {P : List Act → Roster → Prober → Prop}
    (hturn : ∀ {acts act r r' p p'}, Tidy r p → P acts r p → Turn r p act r' p' →
      P (acts ++ [act]) r' p') {acts : List Act} (h : Run x acts y) (hx : x.Sound r)
    (hP : P [] r x.prober) : ∃ r', y.Sound r' ∧ P acts r' y.prober := by
  induction h with
  | nil => exact ⟨r, hx, hP⟩
  | snoc _ k ih =>
    obtain ⟨r', hy, hkept⟩ := ih
    obtain ⟨r'', hz, hturned⟩ := k.turn hy
    exact ⟨r'', hz, hturn hy.tidy hkept hturned⟩

section

variable {acts : List Act}

/-- Once the handle is closed nothing is reported. -/
theorem Run.silent (h : Run x acts y) (hx : x.Sound r) (hclosed : x.prober.closed = true) :
    ∀ act ∈ acts, act.reports = false := by
  obtain ⟨-, -, -, hsilent⟩ := h.keeps_turns
    (P := fun acts _ p => p.closed = true ∧ ∀ act ∈ acts, act.reports = false)
    (fun _ ⟨hclosed, hsilent⟩ hturn => by
      obtain ⟨hclosed', hquiet⟩ := hturn.closed hclosed
      exact ⟨hclosed', List.forall_mem_append.mpr ⟨hsilent, by simpa using hquiet⟩⟩)
    hx ⟨hclosed, nofun⟩
  exact hsilent

/-- Once it is all over nothing is reported, no job is entered, and none is under way any more that
was not before. -/
theorem Run.keeps_over (h : Run x acts y) (hx : x.Sound r) (hover : Over r x.prober) :
    (∃ r', y.Sound r' ∧ Over r' y.prober ∧ r'.pending ⊆ r.pending) ∧
      ∀ act ∈ acts, act.reports = false ∧ act.entered? = none := by
  obtain ⟨r', hy, ⟨hover', hpending⟩, hdone⟩ := h.keeps_turns
    (P := fun acts r' p => (Over r' p ∧ r'.pending ⊆ r.pending) ∧
      ∀ act ∈ acts, act.reports = false ∧ act.entered? = none)
    (fun htidy ⟨⟨hover, hpending⟩, hdone⟩ hturn => by
      obtain ⟨hover', hquiet, hnone, hsubset⟩ := hturn.keeps_over htidy hover
      exact ⟨⟨hover', List.Subset.trans hsubset hpending⟩,
        List.forall_mem_append.mpr ⟨hdone, by simpa using ⟨hquiet, hnone⟩⟩⟩)
    hx ⟨⟨hover, List.Subset.refl _⟩, nofun⟩
  exact ⟨⟨r', hy, hover', hpending⟩, hdone⟩

end

omit [Strategy σ] in
/-- A check that has just been made has one job, whose turn is still to come, unless the watch is
retired. -/
theorem sound_begin {s : Supervisor σ} {i : Nat} {w : Watch} (hw : s.watches[i]? = some w)
    (hnew : w.roster.pending = []) (hrest : s.refreshing = false) :
    ∃ r, (begin s i).Sound r ∧ OnCourse r (begin s i).prober [] ∧ Going r (begin s i).prober ∧
      (begin s i).prober.closed = false ∧ r.closed = w.retired := by
  let p : Prober := { watch := i }
  have hidle (job : Nat) : ¬ p.Live job := nofun
  have hempty : Tidy w.roster p :=
    ⟨by simp [hnew, p, Prober.numbers], List.nodup_nil, nofun, nofun⟩
  have hnothing : OnCourse w.roster p [] := fun _ => ⟨.unborn, fun _ => rfl⟩
  unfold begin Prober.create Prober.enter
  dsimp only
  rw [Supervisor.enterJob_eq hw]
  cases hentered : w.roster.enter with
  | none =>
    refine ⟨w.roster, ⟨hrest, ⟨w, hw, rfl⟩, hempty⟩, hnothing, fun _ hopen => ?_, rfl, rfl⟩
    cases (Roster.enter_eq_none_iff.mp hentered).symm.trans hopen
  | some entered =>
    obtain ⟨first, r⟩ := entered
    have hroster : (s.modifyWatch i fun w => { w with roster := r }).watches[i]? =
        some { w with roster := r } := by
      simp [Supervisor.modifyWatch, hw]
    have hopen : r.closed = w.retired := by
      obtain ⟨-, -, rfl⟩ := Roster.enter_eq_some_iff.mp hentered
      rfl
    refine ⟨r, ⟨hrest, ⟨_, hroster, rfl⟩, hempty.add hentered hidle⟩,
      hnothing.add hempty hentered, fun _ _ => ⟨first, ?_⟩, rfl, hopen⟩
    exact (Prober.live_add rfl).mpr (Or.inl rfl)

/-! ## Jobs under way between steps -/

section

omit [Strategy σ]

/-- The jobs under way are those in the roster. -/
theorem HasRoster.pending (hr : x.HasRoster r) : x.pending = r.pending := by
  obtain ⟨w, hw, rfl⟩ := hr
  rw [Probing.pending, hw]
  rfl

/-- The watch is retired just if its roster is closed. -/
theorem HasRoster.retired (hr : x.HasRoster r) : x.retired = r.closed := by
  obtain ⟨w, hw, rfl⟩ := hr
  rw [Probing.retired, hw]
  rfl

/-- Between steps every job that has not left is live. -/
theorem Resting.live (h : x.Resting) {job : Nat} (hjob : job ∈ x.prober.numbers) :
    x.prober.Live job := by
  obtain ⟨stage, hstage⟩ := Prober.mem_numbers.mp hjob
  have hwaits : stage = .waiting ∨ stage = .probing := h _ (Prober.mem_jobs_of_stage? hstage)
  refine ⟨stage, hstage, ?_⟩
  rcases hwaits with rfl | rfl <;> nofun

/-- So at most one job is under way. -/
theorem Resting.pending_le_one (h : x.Resting) (hx : x.Sound r) : x.pending.length ≤ 1 := by
  rw [hx.roster.pending, hx.tidy.pending]
  cases r.closed with
  | true => exact Nat.zero_le 1
  | false =>
    have hnodup := hx.tidy.nodup
    have hsame (j k : Nat) (hj : j ∈ x.prober.numbers) (hk : k ∈ x.prober.numbers) : j = k :=
      hx.tidy.single j k (h.live hj) (h.live hk)
    show x.prober.numbers.length ≤ 1
    match x.prober.numbers, hnodup, hsame with
    | [], _, _ => exact Nat.zero_le 1
    | [_], _, _ => exact Nat.le_refl 1
    | j :: k :: rest, hnodup, hsame =>
      have heq := hsame j k (by simp) (by simp)
      simp [heq] at hnodup

/-- One is, if a job is live and the roster is open. -/
theorem Resting.pending_eq_one (h : x.Resting) (hx : x.Sound r) (hopen : r.closed = false)
    {job : Nat} (hlive : x.prober.Live job) : x.pending.length = 1 := by
  obtain ⟨stage, hstage, -⟩ := hlive
  have hin : job ∈ x.pending := by
    rw [hx.roster.pending, hx.tidy.pending, hopen]
    exact Prober.mem_numbers.mpr ⟨stage, hstage⟩
  exact Nat.le_antisymm (h.pending_le_one hx) (List.length_pos_of_mem hin)

/-- None is, once it is all over. -/
theorem Resting.pending_eq_nil (h : x.Resting) (hx : x.Sound r) (hover : Over r x.prober) :
    x.pending = [] := by
  rw [hx.roster.pending, hx.tidy.pending]
  cases hclosed : r.closed with
  | true => rfl
  | false =>
    refine List.eq_nil_iff_forall_not_mem.mpr fun job hjob => ?_
    have hnone := hover.resolve_left (by simp [hclosed])
    exact hnone job (h.live hjob)

end

/-! ## Replaying a check -/

/-- The state after an act, with a bound on the passes that it leads to. -/
def replayAct (n : Nat) (x : Probing σ) : Act → Option (Probing σ)
  | .outside => none
  | .retire =>
    (x.supervisor.replayEvent n (.retire x.prober.watch)).map fun t => { x with supervisor := t }
  | .close => some { x with prober := x.prober.close }
  | .wake job =>
    if x.supervisor.hasJob x.prober.watch job ∧ x.prober.stage? job = some .waiting then
      some { x with prober := x.prober.wake job }
    else none
  | .report job healthy =>
    if x.supervisor.hasJob x.prober.watch job ∧ x.prober.stage? job = some .probing ∧
        x.prober.closed = false then
      (x.supervisor.replayEvent n (.report x.prober.watch (Prober.score healthy))).map fun t =>
        ⟨t, x.prober.move job .told⟩
    else none
  | .discard job _ =>
    if x.supervisor.hasJob x.prober.watch job ∧ x.prober.stage? job = some .probing ∧
        x.prober.closed = true then
      some { x with prober := x.prober.move job .leaving }
    else none
  | .follow job delay next =>
    let followed := x.prober.follow x.supervisor job delay
    if x.prober.stage? job = some .told ∧ followed.1.map Prod.fst = next then
      some ⟨followed.2.2, followed.2.1⟩
    else none
  | .leave job =>
    if x.prober.stage? job = some .leaving then
      some ⟨(x.prober.leave x.supervisor job).2, (x.prober.leave x.supervisor job).1⟩
    else none

/-- An act that can be replayed on a supervisor at rest is a step. -/
theorem step_of_replayAct {n : Nat} (hrest : x.supervisor.refreshing = false)
    (h : x.replayAct n act = some y) : Step x act y := by
  cases act with
  | outside => cases h
  | retire =>
    obtain ⟨t, ht, rfl⟩ := Option.map_eq_some_iff.mp h
    cases Supervisor.step_of_replayEvent hrest ht with
    | retire _ hretire => exact .retire hretire
  | close =>
    cases h
    exact .close
  | wake job =>
    obtain ⟨⟨hheld, hstage⟩, heq⟩ := Option.ite_none_right_eq_some.mp h
    cases heq
    exact .wake hheld hstage
  | report job healthy =>
    obtain ⟨⟨hheld, hstage, hopen⟩, heq⟩ := Option.ite_none_right_eq_some.mp h
    obtain ⟨t, ht, rfl⟩ := Option.map_eq_some_iff.mp heq
    cases Supervisor.step_of_replayEvent hrest ht with
    | report hreport =>
      exact .report hheld hstage hopen (by rw [Prober.conclude_of_open hopen, hreport]; rfl)
  | discard job healthy =>
    obtain ⟨⟨hheld, hstage, hclosed⟩, heq⟩ := Option.ite_none_right_eq_some.mp h
    cases heq
    exact .discard hheld hstage hclosed (Prober.conclude_of_closed hclosed healthy)
  | follow job delay next =>
    obtain ⟨⟨hstage, rfl⟩, heq⟩ := Option.ite_none_right_eq_some.mp h
    cases heq
    exact .follow hstage rfl
  | leave job =>
    obtain ⟨hstage, heq⟩ := Option.ite_none_right_eq_some.mp h
    cases heq
    exact .leave hstage

/-- A property of what is replayed is one that some run arrives at. -/
theorem exists_run_of_replay {n : Nat} (hx : x.Sound r) {acts : List Act} {P : Probing σ → Prop}
    [DecidablePred P] (h : (acts.foldlM (replayAct n) x).any (fun y => P y) = true) :
    ∃ y, Run x acts y ∧ P y := by
  refine Run.exists_of_foldlM (P := fun y => ∃ r, y.Sound r) ?_ ⟨r, hx⟩ h
  rintro y act z - ⟨r, hy⟩ hz
  have k := step_of_replayAct hy.atRest hz
  obtain ⟨r', hz, -⟩ := k.turn hy
  exact ⟨k, r', hz⟩

/-! ## Main statement -/

/-- What holds of a check after some acts, where the watch was this when the check was made. -/
structure GoesOn (w : Watch) (acts : List Act) (x : Probing σ) : Prop where
  /-- The handle is closed once one of the acts has closed it. -/
  closed : x.prober.closed = acts.contains .close
  /-- The watch is retired once one of the acts has retired it, or if it was from the start. -/
  retired : x.retired = (w.retired || acts.contains .retire)
  /-- Between steps at most one job is under way. -/
  atMostOne : x.Resting → x.pending.length ≤ 1
  /-- It is exactly one while the handle is open, the watch is not retired and no delay was
  negative. -/
  exactlyOne : x.Resting → x.prober.closed = false → x.retired = false →
    (∀ act ∈ acts, act.breaks = false) → x.pending.length = 1
  /-- Every job keeps to its course: it reports at most once, and then at most one job follows. -/
  course : ∀ job, Course job (x.prober.stage? job) (deeds acts job)
  /-- A result that comes while the handle is open makes one report. -/
  reported : ∀ {job healthy y}, Step x (.report job healthy) y → x.prober.closed = false ∧
    x.supervisor.report x.prober.watch (Prober.score healthy) = some y.supervisor
  /-- A result that comes later makes none. -/
  discarded : ∀ {job healthy y}, Step x (.discard job healthy) y → x.prober.closed = true ∧
    y.supervisor = x.supervisor
  /-- Nothing is reported once the handle is closed. -/
  silent : x.prober.closed = true → ∀ {later y}, Run x later y → ∀ act ∈ later, act.reports = false
  /-- Once no job is under way, none ever is again, and nothing is reported. -/
  ended : x.pending = [] → ∀ {later y}, Run x later y → y.pending = [] ∧
    ∀ act ∈ later, act.reports = false ∧ act.entered? = none
  /-- A negative delay comes after the one report of its job, and is the end. -/
  broken : ∀ {job delay next y}, Step x (.follow job delay next) y → delay < 0 → next = none ∧
    (∃ healthy, deeds acts job = [.wake job, .report job healthy]) ∧
    ∀ {later z}, Run y later z → (z.Resting → z.pending = []) ∧
      ∀ act ∈ later, act.reports = false ∧ act.entered? = none

/-- The loop of a probing check neither dies nor forks, whatever happens around it and in whatever
order, from the making of the check on. -/
theorem probe_loop_goes_on {s : Supervisor σ} {i : Nat} {w : Watch} (hw : s.watches[i]? = some w)
    (hnew : w.roster.pending = []) (hrest : s.refreshing = false) {acts : List Act}
    {x : Probing σ} (h : Run (begin s i) acts x) : GoesOn w acts x := by
  obtain ⟨r₀, hbegun, hcourse₀, hgoing₀, hopen₀, hlive₀⟩ := sound_begin hw hnew hrest
  -- What every turn keeps: both flags say which acts have been, every job is on its course, and the
  -- check goes on unless a delay was broken.
  obtain ⟨r, hx, ⟨hclosed, hretired⟩, hcourse, hgoing⟩ := h.keeps_turns
    (P := fun acts r p => (p.closed = acts.contains .close ∧
      r.closed = (w.retired || acts.contains .retire)) ∧ OnCourse r p acts ∧
      ((∀ act ∈ acts, act.breaks = false) → Going r p))
    (fun htidy ⟨⟨hclosed, hretired⟩, hcourse, hgoing⟩ hturn => by
      obtain ⟨hclosed', hretired'⟩ := hturn.closed_eq
      refine ⟨⟨?_, ?_⟩, hturn.onCourse htidy hcourse, fun hdelays => ?_⟩
      · rw [hclosed', hclosed]
        simp [eq_comm]
      · rw [hretired', hretired, Bool.or_assoc]
        simp [eq_comm]
      · obtain ⟨hearlier, hlast⟩ := List.forall_mem_append.mp hdelays
        exact hturn.going htidy (hgoing hearlier) (by simpa using hlast))
    hbegun ⟨⟨hopen₀, by simpa using hlive₀⟩, hcourse₀, fun _ => hgoing₀⟩
  constructor
  case closed => exact hclosed
  case retired => exact hx.roster.retired.trans hretired
  case atMostOne => exact fun hresting => hresting.pending_le_one hx
  case exactlyOne =>
    intro hresting hhandle hlive hdelays
    rw [hx.roster.retired] at hlive
    obtain ⟨job, hjob⟩ := hgoing hdelays hhandle hlive
    exact hresting.pending_eq_one hx hlive hjob
  case course => exact fun job => (hcourse job).1
  case reported =>
    intro job healthy y k
    cases k with
    | report _ _ hopen hconclude =>
      rw [Prober.conclude_of_open hopen] at hconclude
      obtain ⟨t, ht, heq⟩ := Option.map_eq_some_iff.mp hconclude
      cases heq
      exact ⟨hopen, ht⟩
  case discarded =>
    intro job healthy y k
    cases k with
    | discard _ _ hclosed hconclude =>
      rw [Prober.conclude_of_closed hclosed] at hconclude
      cases hconclude
      exact ⟨hclosed, rfl⟩
  case silent => exact fun hclosed _ _ k => k.silent hx hclosed
  case ended =>
    intro hnone later y k
    rw [hx.roster.pending] at hnone
    obtain ⟨⟨r', hy, -, hpending⟩, hdone⟩ := k.keeps_over hx (hx.tidy.over_of_nil hnone)
    rw [hnone] at hpending
    exact ⟨hy.roster.pending.trans (List.subset_nil.mp hpending), hdone⟩
  case broken =>
    intro job delay next y k hnegative
    obtain ⟨r', hy, hturn⟩ := k.turn hx
    obtain ⟨htold, hnone, hover⟩ := hturn.over_of_negative hx.tidy hnegative
    refine ⟨hnone, (htold ▸ (hcourse job).1).eq_of_told, fun l => ?_⟩
    obtain ⟨⟨r'', hz, hover', -⟩, hdone⟩ := l.keeps_over hy hover
    exact ⟨fun hresting => hresting.pending_eq_nil hz hover', hdone⟩

/-- A check reports and goes on with another job. If its handle is closed while that one is probing,
nothing is reported any more. If its watch is retired while that one is about to go on, no job
follows, and nothing is reported ever again. -/
theorem probe_loop_ends_with_its_watch :
    let s := (Supervisor.fresh {} (Policy.ofQuota none)).addWatch { host := "a" }
    let first : List Act := [.wake 0, .report 0 true, .follow 0 3000 (some 1), .leave 0]
    let closing : List Act := [.wake 1, .close]
    let second : List Act := [.wake 1, .report 1 false, .retire, .follow 1 3000 none]
    (∃ x, Run (begin s 0) first x ∧ x.pending.length = 1) ∧
      (∃ x, Run (begin s 0) (first ++ closing) x ∧ x.prober.stage? 1 = some .probing ∧
        ∀ later y, Run x later y → ∀ act ∈ later, act.reports = false) ∧
      ∃ x, Run (begin s 0) (first ++ second) x ∧ x.retired = true ∧
        ∀ later y, Run x later y → y.pending = [] ∧ ∀ act ∈ later, act.reports = false := by
  intro s first closing second
  have hw : s.watches[0]? = some { origin := { host := "a" }, target := { host := "a" } } := rfl
  obtain ⟨r, hbegun, -⟩ := sound_begin hw rfl rfl
  refine ⟨?_, ?_, ?_⟩
  · obtain ⟨x, h, hresting⟩ :
        ∃ x, Run (begin s 0) first x ∧
          ∀ entry ∈ x.prober.jobs, entry.2 = .waiting ∨ entry.2 = .probing :=
      exists_run_of_replay (n := 9) hbegun (by decide)
    have hgoes := probe_loop_goes_on hw rfl rfl h
    exact ⟨x, h, hgoes.exactlyOne hresting hgoes.closed hgoes.retired (by decide)⟩
  · obtain ⟨x, h, hprobing⟩ :
        ∃ x, Run (begin s 0) (first ++ closing) x ∧ x.prober.stage? 1 = some .probing :=
      exists_run_of_replay (n := 9) hbegun (by decide)
    have hgoes := probe_loop_goes_on hw rfl rfl h
    exact ⟨x, h, hprobing, fun _ _ k => hgoes.silent hgoes.closed k⟩
  · obtain ⟨x, h, hpending⟩ :
        ∃ x, Run (begin s 0) (first ++ second) x ∧ x.pending = [] :=
      exists_run_of_replay (n := 9) hbegun (by decide)
    have hgoes := probe_loop_goes_on hw rfl rfl h
    refine ⟨x, h, hgoes.retired, fun later y k => ?_⟩
    obtain ⟨hnone, hdone⟩ := hgoes.ended hpending k
    exact ⟨hnone, fun act hact => (hdone act hact).1⟩

end Probing

end HealthWatch
