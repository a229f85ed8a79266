import HealthWatch.Proofs.Crew.Turns
import HealthWatch.Proofs.Supervisor.Replay
import HealthWatch.Proofs.Supervisor.Rosters
import HealthWatch.Strategy.Policy

/-!
# The jobs of a watch are accounted for

A watch with its crew and its supervisor, from the time when it is begun. Jobs are scheduled, run,
end and are cancelled in any order, the watch is retired at any time and as often as one likes, and
in between the supervisor does whatever else it does. What is under way is known from what was done
(`jobs_are_accounted_for`).
-/

set_option autoImplicit false

namespace HealthWatch

open Crew (Act Turn Accounts accepted gone gone_append)

/-- The crew of a watch and its supervisor. -/
structure Crewed (σ : Type) where
  supervisor : Supervisor σ
  crew : Crew

namespace Crewed

variable {σ : Type}

/-- The numbers of the jobs under way. -/
def pending (x : Crewed σ) : List Nat :=
  x.supervisor.pendingJobs x.crew.watch

/-- Is the watch retired? -/
def retired (x : Crewed σ) : Bool :=
  (x.supervisor.watches[x.crew.watch]?).any Watch.retired

/-- A watch that no job was scheduled with. -/
def unscheduled (s : Supervisor σ) (watch : Nat) : Crewed σ :=
  ⟨s, { watch := watch }⟩

variable [Strategy σ]

/-- One act and the states before and after it. -/
inductive Step (x : Crewed σ) : Act → Crewed σ → Prop where
  | outside {event : Supervisor.Event} {t : Supervisor σ} (h : Supervisor.Step x.supervisor event t)
      (hother : event.handlesJobsOf x.crew.watch = false) :
      Step x .outside { x with supervisor := t }
  | abandon : Step x .outside { x with supervisor := x.supervisor.abandon }
  | retire {c : Crew} {t : Supervisor σ} (h : x.crew.retire x.supervisor = some (c, t)) :
      Step x .retire ⟨t, c⟩
  | accept {rhythm : Rhythm} {number : Nat} {c : Crew} {t : Supervisor σ}
      (h : x.crew.schedule x.supervisor rhythm = .ok (number, c, t)) :
      Step x (.schedule rhythm (some number)) ⟨t, c⟩
  | refuse {rhythm : Rhythm} {error : JobError}
      (h : x.crew.schedule x.supervisor rhythm = .error error) :
      Step x (.schedule rhythm none) x
  | start {number : Nat} (hready : x.crew.ready number = true) :
      Step x (.start number) { x with crew := x.crew.start number }
  | pause {number : Nat} {j : Job} (hjob : x.crew.job? number = some j)
      (hrunning : j.stage = .running) :
      Step x (.pause number) { x with crew := x.crew.pause number }
  | finish {number : Nat} {j : Job} (hjob : x.crew.job? number = some j)
      (hrunning : j.stage = .running) (hends : j.rhythm.ends = true) :
      Step x (.finish number)
        ⟨(x.crew.finish x.supervisor number).2, (x.crew.finish x.supervisor number).1⟩
  /-- Every job that was scheduled can be cancelled, at any time and any number of times. -/
  | cancel {number : Nat} (hknown : number ∈ x.crew.numbers) :
      Step x (.cancel number)
        ⟨(x.crew.cancel x.supervisor number).2, (x.crew.cancel x.supervisor number).1⟩

/-- A sequence of acts, the latest last, from one state to another. -/
abbrev Run (x : Crewed σ) : List Act → Crewed σ → Prop :=
  HealthWatch.Run Step x

/-! ## Steps are turns -/

/-- What holds at all times: no passes are under way, and what was done accounts for the crew and
for the roster of the watch. -/
structure Sound (acts : List Act) (x : Crewed σ) (w : Watch) : Prop where
  atRest : x.supervisor.refreshing = false
  watch : x.supervisor.watches[x.crew.watch]? = some w
  accounts : Accounts acts w.roster x.crew

end Crewed

namespace Crew

variable {σ : Type} {c : Crew} {s : Supervisor σ} {w : Watch}

/-- A job is scheduled if its period is not zero and the roster takes it in. -/
theorem schedule_eq (hw : s.watches[c.watch]? = some w) (rhythm : Rhythm) :
    c.schedule s rhythm =
      if rhythm.hasZeroPeriod then .error .zeroPeriod
      else
        match w.roster.enter with
        | none => .error (.rejected w.target)
        | some (number, r) =>
          .ok (number, c.add number rhythm,
            s.modifyWatch c.watch fun w => { w with roster := r }) := by
  rw [schedule, Supervisor.enterJob_eq hw, Supervisor.targetOf_eq hw]
  cases w.roster.enter <;> rfl

/-- A job that is taken gets its number from the roster of the watch, is entered there, and changes
nothing else of the supervisor. -/
theorem of_schedule_eq_ok (hw : s.watches[c.watch]? = some w) {rhythm : Rhythm} {number : Nat}
    {d : Crew} {t : Supervisor σ} (h : c.schedule s rhythm = .ok (number, d, t)) :
    rhythm.hasZeroPeriod = false ∧ ∃ r, w.roster.enter = some (number, r) ∧
      d = c.add number rhythm ∧ t = s.modifyWatch c.watch fun w => { w with roster := r } := by
  rw [schedule_eq hw] at h
  cases hperiod : rhythm.hasZeroPeriod with
  | true => simp [hperiod] at h
  | false =>
    rw [hperiod, if_neg Bool.false_ne_true] at h
    split at h
    · cases h
    · rename_i r henter
      cases h
      exact ⟨rfl, r, henter, rfl, rfl⟩

/-- A job is refused only for a period of zero or by a closed roster. -/
theorem of_schedule_eq_error (hw : s.watches[c.watch]? = some w) {rhythm : Rhythm}
    {error : JobError} (h : c.schedule s rhythm = .error error) :
    rhythm.hasZeroPeriod = true ∨ w.roster.closed = true := by
  rw [schedule_eq hw] at h
  split at h
  · exact Or.inl ‹_›
  · split at h
    · exact Or.inr (Roster.enter_eq_none_iff.mp ‹_›)
    · cases h

end Crew

namespace Crewed

variable {σ : Type} [Strategy σ] {x y : Crewed σ} {act : Act} {acts : List Act} {w : Watch}

omit [Strategy σ] in
/-- The jobs under way are those in the roster of the watch. -/
theorem Sound.pending_eq (hx : x.Sound acts w) : x.pending = w.roster.pending :=
  Supervisor.pendingJobs_eq hx.watch

/-- What a step does to the crew and to the roster of the watch is a turn of theirs. -/
theorem Step.effect (k : Step x act y) (hrest : x.supervisor.refreshing = false)
    (hw : x.supervisor.watches[x.crew.watch]? = some w) :
    y.supervisor.refreshing = false ∧
      ∃ v, y.supervisor.watches[y.crew.watch]? = some v ∧
        Turn w.roster x.crew act v.roster y.crew := by
  have hmodify (f : Watch → Watch) :
      (x.supervisor.modifyWatch x.crew.watch f).watches[x.crew.watch]? = some (f w) := by
    simp [Supervisor.modifyWatch, hw]
  cases k with
  | outside h hother =>
    obtain ⟨v, hv, hsame⟩ := h.roster hrest hother hw
    exact ⟨h.refreshing hrest, v, hv, hsame ▸ .outside⟩
  | abandon =>
    unfold Supervisor.abandon
    split <;> exact ⟨hrest, w, hw, .outside⟩
  | retire h =>
    obtain ⟨t, ht, heq⟩ := Option.map_eq_some_iff.mp h
    rw [Supervisor.pendingJobs_eq hw] at heq
    cases heq
    rcases Supervisor.roster_of_retire hrest hw ht with ⟨hclosed, rfl⟩ | ⟨hidle, v, hv, hroster⟩
    · exact ⟨hrest, w, hw, .retired hclosed⟩
    · exact ⟨hidle, v, hv, hroster ▸ .retire⟩
  | accept h =>
    obtain ⟨hperiod, r, henter, rfl, rfl⟩ := Crew.of_schedule_eq_ok hw h
    exact ⟨hrest, _, hmodify _, .accept hperiod henter⟩
  | refuse h => exact ⟨hrest, w, hw, .refuse (Crew.of_schedule_eq_error hw h)⟩
  | start hready => exact ⟨hrest, w, hw, .start hready⟩
  | pause hjob hrunning => exact ⟨hrest, w, hw, .pause hjob hrunning⟩
  | finish hjob hrunning hends => exact ⟨hrest, _, hmodify _, .finish hjob hrunning hends⟩
  | cancel hknown => exact ⟨hrest, _, hmodify _, .cancel hknown⟩

/-- A step keeps the supervisor at rest, and its act accounts for what it changes in the roster and
the crew. -/
theorem Step.sound (k : Step x act y) (hx : x.Sound acts w) :
    ∃ v, y.Sound (acts ++ [act]) v := by
  obtain ⟨hrest, v, hv, hturn⟩ := k.effect hx.atRest hx.watch
  exact ⟨v, hrest, hv, hturn.accounts hx.accounts⟩

/-- After any run the acts of the run, behind those from before, account for the roster and the
crew. -/
theorem Run.sound {later : List Act} (h : Run x later y) (hx : x.Sound acts w) :
    ∃ v, y.Sound (acts ++ later) v := by
  induction h with
  | nil => exact ⟨w, (List.append_nil acts).symm ▸ hx⟩
  | snoc _ k ih =>
    obtain ⟨v, hy⟩ := ih
    obtain ⟨u, hz⟩ := k.sound hy
    exact ⟨u, List.append_assoc .. ▸ hz⟩

omit [Strategy σ] in
/-- A watch with a new roster has a crew without jobs, and nothing has yet been done to either. -/
theorem sound_unscheduled {s : Supervisor σ} {i : Nat} (hw : s.watches[i]? = some w)
    (hnew : w.roster = {}) (hrest : s.refreshing = false) : (unscheduled s i).Sound [] w :=
  ⟨hrest, hw, hnew ▸ .of_fresh⟩

/-- A job that is gone is not run again, and no job is once the watch is retired. -/
theorem Run.still {later : List Act} (h : Run x later y) (hx : x.Sound acts w) {n : Nat}
    (hover : .retire ∈ acts ∨ gone acts n = true) : .start n ∉ later := by
  induction h with
  | nil => exact List.not_mem_nil
  | @snoc earlier act y z h k ih =>
    rw [List.mem_append, List.mem_singleton]
    rintro (hearlier | rfl)
    · exact ih hearlier
    · cases k with
      | start hready =>
        obtain ⟨v, hy⟩ := Run.sound h hx
        obtain ⟨j, hjob, hj⟩ := (Option.any_eq_true _ _).mp hready
        have hrest := hy.accounts.atRest hjob
        rw [Job.not_atRest_of_ready hj, hy.accounts.closed, gone_append] at hrest
        rcases hover with hretire | hgone
        · simp [hretire] at hrest
        · simp [hgone] at hrest

/-! ## Replaying the jobs of a watch -/

/-- The state after an act, with a bound on the passes that it leads to. -/
def replayAct (n : Nat) (x : Crewed σ) : Act → Option (Crewed σ)
  | .outside => none
  | .retire =>
    (x.supervisor.replayEvent n (.retire x.crew.watch)).map fun t =>
      ⟨t, x.crew.stop (x.supervisor.pendingJobs x.crew.watch)⟩
  | .schedule rhythm number =>
    match x.crew.schedule x.supervisor rhythm with
    | .ok (given, c, t) => if number = some given then some ⟨t, c⟩ else none
    | .error _ => if number = none then some x else none
  | .start number =>
    if x.crew.ready number then some { x with crew := x.crew.start number } else none
  | .pause number =>
    if (x.crew.job? number).any fun j => j.stage = .running then
      some { x with crew := x.crew.pause number }
    else none
  | .finish number =>
    if (x.crew.job? number).any fun j => j.stage = .running ∧ j.rhythm.ends = true then
      some ⟨(x.crew.finish x.supervisor number).2, (x.crew.finish x.supervisor number).1⟩
    else none
  | .cancel number =>
    if number ∈ x.crew.numbers then
      some ⟨(x.crew.cancel x.supervisor number).2, (x.crew.cancel x.supervisor number).1⟩
    else none

/-- An act that can be replayed on a supervisor at rest is a step. -/
theorem step_of_replayAct {n : Nat} (hrest : x.supervisor.refreshing = false)
    (h : x.replayAct n act = some y) : Step x act y := by
  cases act with
  | outside => cases h
  | retire =>
    obtain ⟨t, ht, rfl⟩ := Option.map_eq_some_iff.mp h
    cases Supervisor.step_of_replayEvent hrest ht with
    | retire _ hretire => exact .retire (by rw [Crew.retire, hretire]; rfl)
  | schedule rhythm number =>
    rw [replayAct] at h
    split at h
    · obtain ⟨rfl, ⟨⟩⟩ := Option.ite_none_right_eq_some.mp h
      exact .accept ‹_›
    · obtain ⟨rfl, ⟨⟩⟩ := Option.ite_none_right_eq_some.mp h
      exact .refuse ‹_›
  | start number =>
    obtain ⟨hready, ⟨⟩⟩ := Option.ite_none_right_eq_some.mp h
    exact .start hready
  | pause number =>
    obtain ⟨hany, ⟨⟩⟩ := Option.ite_none_right_eq_some.mp h
    obtain ⟨j, hjob, hrunning⟩ := (Option.any_eq_true _ _).mp hany
    exact .pause hjob (of_decide_eq_true hrunning)
  | finish number =>
    obtain ⟨hany, ⟨⟩⟩ := Option.ite_none_right_eq_some.mp h
    obtain ⟨j, hjob, hj⟩ := (Option.any_eq_true _ _).mp hany
    obtain ⟨hrunning, hends⟩ := of_decide_eq_true hj
    exact .finish hjob hrunning hends
  | cancel number =>
    obtain ⟨hknown, ⟨⟩⟩ := Option.ite_none_right_eq_some.mp h
    exact .cancel hknown

/-- What is replayed is a run. -/
theorem run_of_replay {n : Nat} {past : List Act} (hx : x.Sound past w)
    (h : acts.foldlM (replayAct n) x = some y) : Run x acts y := by
  refine Run.of_foldlM (P := fun z => ∃ past v, z.Sound past v) ?_ ⟨past, w, hx⟩ h
  rintro z act z' - ⟨past, v, hz⟩ hz'
  have k := step_of_replayAct hz.atRest hz'
  exact ⟨k, _, k.sound hz⟩

/-! ## Main statement -/

/-- What holds of a watch and its jobs after some acts. -/
structure Accounted (acts : List Act) (x : Crewed σ) : Prop where
  /-- No number is given twice. -/
  fresh : (accepted acts).Nodup
  /-- As long as the watch is not retired, every job is under way that was scheduled and has neither
  ended nor been cancelled. -/
  underWay : .retire ∉ acts → x.pending = (accepted acts).filter fun n => !gone acts n
  /-- A job is under way just as long as a further step of it is to come. -/
  served : ∀ n, n ∈ x.pending ↔ ∃ j, x.crew.job? n = some j ∧ j.atRest = false
  /-- So a job that waits is run again just as long as it is in the roster. -/
  runs : ∀ {n j}, x.crew.job? n = some j → j.stage = .waiting →
    x.crew.ready n = x.supervisor.hasJob x.crew.watch n
  /-- A watch that is not retired takes every job that does not repeat without time passing. -/
  taken : .retire ∉ acts → ∀ rhythm : Rhythm, rhythm.hasZeroPeriod = false →
    ∃ made, x.crew.schedule x.supervisor rhythm = .ok made
  retired : x.retired = acts.contains .retire
  /-- Once the watch is retired no job is under way, and it takes none. -/
  ended : .retire ∈ acts → x.pending = [] ∧ ∀ rhythm : Rhythm,
    x.crew.schedule x.supervisor rhythm = .error
      (if rhythm.hasZeroPeriod then .zeroPeriod
        else .rejected (x.supervisor.targetOf x.crew.watch))
  /-- A job that has ended or was cancelled is not run again, and once the watch is retired no job
  is. -/
  still : ∀ n, .retire ∈ acts ∨ gone acts n = true → ∀ {later y}, Run x later y →
    .start n ∉ later

/-- Whatever is done to the jobs of a watch, and in whatever order, its roster accounts for them,
from the beginning of the watch on. -/
theorem jobs_are_accounted_for {s : Supervisor σ} {i : Nat} (hw : s.watches[i]? = some w)
    (hnew : w.roster = {}) (hrest : s.refreshing = false) (h : Run (unscheduled s i) acts x) :
    Accounted acts x := by
  obtain ⟨v, hx⟩ := h.sound (sound_unscheduled hw hnew hrest)
  have haccounts : Accounts acts v.roster x.crew := hx.accounts
  constructor
  case fresh => exact haccounts.nodup
  case underWay =>
    intro hlive
    rw [hx.pending_eq, haccounts.pending, haccounts.closed]
    simp [hlive]
  case served => exact fun n => hx.pending_eq ▸ haccounts.mem_pending_iff
  case runs =>
    intro n j hjob hwaits
    rw [haccounts.ready_eq hjob hwaits, Supervisor.hasJob, hx.watch]
    rfl
  case taken =>
    intro hlive rhythm hperiod
    -- a roster that is open always takes the next number
    have hopen : v.roster.closed = false := by simpa [hlive] using haccounts.closed
    have henter : v.roster.enter = some (v.roster.nextId, _) :=
      Roster.enter_eq_some_iff.mpr ⟨hopen, rfl, rfl⟩
    rw [Crew.schedule_eq hx.watch, hperiod, henter]
    exact ⟨_, rfl⟩
  case retired =>
    rw [Crewed.retired, hx.watch, ← haccounts.closed]
    rfl
  case ended =>
    intro hretire
    have hclosed : v.roster.closed = true := by simpa [hretire] using haccounts.closed
    constructor
    · rw [hx.pending_eq, haccounts.pending, if_pos hclosed]
    · intro rhythm
      rw [Crew.schedule_eq hx.watch, Roster.enter_eq_none_iff.mpr hclosed,
        Supervisor.targetOf_eq hx.watch]
      split <;> rfl
  case still => exact fun n hover _ _ k => k.still hx hover

/-- A job ends after it has scheduled another, which is cancelled twice, and a third is in the
middle of a step when the watch is retired: that step ends, and none follows. -/
theorem jobs_end_with_their_watch :
    let s := (Supervisor.fresh {} (Policy.ofQuota none)).addWatch { host := "a" }
    let first : List Act := [.schedule (.once none) (some 0), .start 0,
      .schedule (.once (some 5)) (some 1), .finish 0, .cancel 1, .cancel 1,
      .schedule (.fixedRate 0 0) none, .schedule (.fixedRate 0 9) (some 2), .start 2]
    let last : List Act := [.retire, .pause 2, .cancel 0, .retire, .schedule (.once none) none]
    (∃ x, Run (unscheduled s 0) first x ∧ x.pending = [2]) ∧
      ∃ x, Run (unscheduled s 0) (first ++ last) x ∧ x.pending = [] ∧
        ∀ later y, Run x later y → .start 2 ∉ later := by
  intro s first last
  have hw : s.watches[0]? = some { origin := { host := "a" }, target := { host := "a" } } := rfl
  have hnew := sound_unscheduled hw rfl rfl
  constructor
  · obtain ⟨x, hx⟩ := Option.isSome_iff_exists.mp
      (show (first.foldlM (replayAct 9) (unscheduled s 0)).isSome = true by decide)
    have h := run_of_replay hnew hx
    exact ⟨x, h, (jobs_are_accounted_for hw rfl rfl h).underWay (by decide)⟩
  · obtain ⟨x, hx⟩ := Option.isSome_iff_exists.mp
      (show ((first ++ last).foldlM (replayAct 9) (unscheduled s 0)).isSome = true by decide)
    have h := run_of_replay hnew hx
    have haccounted := jobs_are_accounted_for hw rfl rfl h
    exact ⟨x, h, (haccounted.ended (by decide)).1,
      fun _ _ k => haccounted.still 2 (Or.inl (by decide)) k⟩

end Crewed

end HealthWatch
