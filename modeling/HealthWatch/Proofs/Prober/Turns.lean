import HealthWatch.Prober

/-!
# What happens around a probing check

A `Turn` is one thing that happens, as the jobs of a check and the roster of its watch see it: the
turn of a job comes, a result is reported or is not, the next job follows, a job leaves, the handle
is closed or the watch comes to its end. Everything else leaves both as they are.

Of the jobs that have not left at most one is live, which means that it has more to do than to leave
(`Turn.tidy`). One is live as long as neither the handle nor the roster is closed and no delay was
negative (`Turn.going`). When none is live, or the roster is closed, it is all over: nothing is
reported any more, and no job is entered (`Turn.keeps_over`).
-/

set_option autoImplicit false

namespace HealthWatch.Prober

/-- Something that happens around a probing check. -/
inductive Act where
  /-- The supervisor does something that has nothing to do with the check. -/
  | outside
  /-- The watch comes to its end. -/
  | retire
  /-- The handle is closed. -/
  | close
  /-- The turn of a job has come. -/
  | wake (job : Nat)
  /-- The probe of a job is over, and the result is reported. -/
  | report (job : Nat) (healthy : Bool)
  /-- The probe of a job is over, and nothing is reported. -/
  | discard (job : Nat) (healthy : Bool)
  /-- A job that has reported has the next one follow after a delay, unless there is none. -/
  | follow (job : Nat) (delay : Int64) (next : Option Nat)
  /-- A job leaves the roster. -/
  | leave (job : Nat)
deriving DecidableEq

namespace Act

/-- The job that acts. -/
def job? : Act → Option Nat
  | wake job | report job _ | discard job _ | follow job _ _ | leave job => some job
  | outside | retire | close => none

/-- Is it a report? -/
def reports : Act → Bool
  | report _ _ => true
  | _ => false

/-- The job that is entered. -/
def entered? : Act → Option Nat
  | follow _ _ next => next
  | _ => none

/-- Has the backoff given a negative delay? -/
def breaks : Act → Bool
  | follow _ delay _ => delay < 0
  | _ => false

end Act

/-- One act and what it does to the roster of the watch and to the check. A job whose turn is still
to come, or that is probing, only acts while it is in the roster: when the roster is closed it is
dropped where it stands. -/
inductive Turn (r : Roster) (p : Prober) : Act → Roster → Prober → Prop where
  | outside : Turn r p .outside r p
  | retire : Turn r p .retire r.close p
  /-- A watch ends only once. -/
  | retired (h : r.closed = true) : Turn r p .retire r p
  | close : Turn r p .close r p.close
  | wake {job : Nat} (hheld : r.holds job = true) (hstage : p.stage? job = some .waiting) :
      Turn r p (.wake job) r (p.wake job)
  | report {job : Nat} (healthy : Bool) (hheld : r.holds job = true)
      (hstage : p.stage? job = some .probing) (hopen : p.closed = false) :
      Turn r p (.report job healthy) r (p.move job .told)
  | discard {job : Nat} (healthy : Bool) (hheld : r.holds job = true)
      (hstage : p.stage? job = some .probing) (hclosed : p.closed = true) :
      Turn r p (.discard job healthy) r (p.move job .leaving)
  | follow {job next : Nat} {delay : Int64} {entered : Roster}
      (hstage : p.stage? job = some .told) (hdelay : ¬ delay < 0)
      (henter : r.enter = some (next, entered)) :
      Turn r p (.follow job delay (some next)) entered ((p.move job .leaving).add next)
  /-- Nothing follows a negative delay, or once the roster is closed. -/
  | stop {job : Nat} {delay : Int64} (hstage : p.stage? job = some .told)
      (hend : delay < 0 ∨ r.closed = true) :
      Turn r p (.follow job delay none) r (p.move job .leaving)
  | leave {job : Nat} (hstage : p.stage? job = some .leaving) :
      Turn r p (.leave job) (r.release job) (p.remove job)

/-! ## Live jobs -/

/-- A job that has more to do than to leave. -/
def Live (p : Prober) (job : Nat) : Prop :=
  ∃ stage, p.stage? job = some stage ∧ stage ≠ .leaving

section

variable {p : Prober} {job other : Nat}

/-- Bringing a live job to a stage makes no other job live. -/
theorem live_of_move {stage : Stage} (hjob : p.Live job) (h : (p.move job stage).Live other) :
    p.Live other := by
  obtain ⟨now, hnow, hlive⟩ := h
  rw [stage?_move] at hnow
  split at hnow
  · rename_i heq
    subst heq
    exact hjob
  · exact ⟨now, hnow, hlive⟩

/-- A live job that does not leave stays live. -/
theorem live_move {stage : Stage} (hjob : p.Live job) (hstage : stage ≠ .leaving) :
    (p.move job stage).Live job := by
  obtain ⟨old, hold, -⟩ := hjob
  exact ⟨stage, by simp [stage?_move, hold], hstage⟩

/-- A job that is about to leave is not live any more. -/
theorem not_live_move (job : Nat) : ¬ (p.move job .leaving).Live job := by
  rintro ⟨now, hnow, hlive⟩
  rw [stage?_move, if_pos rfl] at hnow
  obtain ⟨-, -, rfl⟩ := Option.map_eq_some_iff.mp hnow
  exact hlive rfl

/-- Removing a job leaves the others as live as they were. -/
theorem live_remove : (p.remove job).Live other ↔ other ≠ job ∧ p.Live other := by
  simp only [Live, stage?_remove]
  split <;> simp_all

/-- A new job is live, and the others are as live as they were. -/
theorem live_add (h : p.stage? job = none) :
    (p.add job).Live other ↔ other = job ∨ p.Live other := by
  simp only [Live, stage?_add]
  split
  · simp_all
  · simp_all

end

/-! ## At most one live job -/

/-- What holds of a roster and a check at all times: the jobs that have not left are under way until
the roster is closed, their numbers are different and were given before, and at most one of them is
live. -/
structure Tidy (r : Roster) (p : Prober) : Prop where
  pending : r.pending = if r.closed then [] else p.numbers
  nodup : p.numbers.Nodup
  used : ∀ job ∈ p.numbers, job < r.nextId
  single : ∀ j k, p.Live j → p.Live k → j = k

namespace Tidy

variable {r : Roster} {p : Prober}

/-- A job that is in the roster keeps it open. -/
theorem open_of_holds (h : Tidy r p) {job : Nat} (hheld : r.holds job = true) :
    r.closed = false := by
  cases hclosed : r.closed with
  | false => rfl
  | true => simp [Roster.holds, h.pending, hclosed] at hheld

/-- The number that is given next is of no job yet. -/
theorem fresh (h : Tidy r p) : p.stage? r.nextId = none := by
  cases hstage : p.stage? r.nextId with
  | none => rfl
  | some stage => exact absurd (h.used _ (mem_numbers.mpr ⟨stage, hstage⟩)) (Nat.lt_irrefl _)

/-- Once the live job has nothing left to do but to leave, none is live. -/
theorem not_live_move_leaving (h : Tidy r p) {job : Nat} (hjob : p.Live job) (other : Nat) :
    ¬ (p.move job .leaving).Live other := by
  intro hlive
  obtain rfl := h.single _ _ hjob (live_of_move hjob hlive)
  exact not_live_move _ hlive

/-- Bringing a live job to a stage keeps the check tidy. -/
theorem move (h : Tidy r p) {job : Nat} (hjob : p.Live job) (stage : Stage) :
    Tidy r (p.move job stage) where
  pending := by rw [numbers_move]; exact h.pending
  nodup := by rw [numbers_move]; exact h.nodup
  used := by rw [numbers_move]; exact h.used
  single j k hj hk := h.single j k (live_of_move hjob hj) (live_of_move hjob hk)

/-- A job is taken in where none is live. -/
theorem add (h : Tidy r p) {next : Nat} {entered : Roster}
    (henter : r.enter = some (next, entered)) (hnone : ∀ job, ¬ p.Live job) :
    Tidy entered (p.add next) := by
  obtain ⟨hopen, rfl, rfl⟩ := Roster.enter_eq_some_iff.mp henter
  constructor
  case pending => simp [numbers_add, h.pending, hopen]
  case nodup =>
    rw [numbers_add]
    refine List.nodup_append.mpr ⟨h.nodup, by simp, ?_⟩
    intro j hj k hk
    rw [List.mem_singleton.mp hk]
    exact Nat.ne_of_lt (h.used j hj)
  case used =>
    intro job hjob
    rw [numbers_add, List.mem_append, List.mem_singleton] at hjob
    rcases hjob with hjob | rfl
    · exact Nat.lt_succ_of_lt (h.used job hjob)
    · exact Nat.lt_succ_self _
  case single =>
    intro j k hj hk
    rw [live_add h.fresh] at hj hk
    exact (hj.resolve_right (hnone j)).trans (hk.resolve_right (hnone k)).symm

/-- A job that leaves the check and the roster at once keeps both tidy. -/
theorem remove (h : Tidy r p) (job : Nat) : Tidy (r.release job) (p.remove job) where
  pending := by
    rw [numbers_remove, Roster.release, h.pending]
    cases r.closed <;> rfl
  nodup := by rw [numbers_remove]; exact h.nodup.filter _
  used := by
    rw [numbers_remove]
    exact fun other hother => h.used other (List.mem_filter.mp hother |>.1)
  single j k hj hk := h.single j k (live_remove.mp hj).2 (live_remove.mp hk).2

end Tidy

variable {r r' : Roster} {p p' : Prober} {act : Act}

/-- What a turn keeps: at most one job is live. -/
theorem Turn.tidy (h : Tidy r p) (k : Turn r p act r' p') : Tidy r' p' := by
  cases k with
  | outside => exact h
  | retire => exact ⟨rfl, h.nodup, h.used, h.single⟩
  | retired _ => exact h
  | close => exact ⟨h.pending, h.nodup, h.used, h.single⟩
  | wake _ hstage => exact h.move ⟨_, hstage, nofun⟩ _
  | report _ _ hstage _ => exact h.move ⟨_, hstage, nofun⟩ _
  | discard _ _ hstage _ => exact h.move ⟨_, hstage, nofun⟩ _
  | follow hstage _ henter =>
    have hlive : p.Live _ := ⟨_, hstage, nofun⟩
    exact (h.move hlive .leaving).add henter (h.not_live_move_leaving hlive)
  | stop hstage _ => exact h.move ⟨_, hstage, nofun⟩ _
  | leave _ => exact h.remove _

/-! ## One live job while nothing stops it -/

/-- The check goes on: unless its handle or the roster is closed, a job is live. -/
def Going (r : Roster) (p : Prober) : Prop :=
  p.closed = false → r.closed = false → ∃ job, p.Live job

/-- What a turn without a negative delay keeps: the check goes on. -/
theorem Turn.going (htidy : Tidy r p) (h : Going r p) (k : Turn r p act r' p')
    (hdelay : act.breaks = false) : Going r' p' := by
  intro hhandle hroster
  cases k with
  | outside => exact h hhandle hroster
  | retire => cases hroster
  | retired _ => exact h hhandle hroster
  | close => cases hhandle
  | @wake job _ hstage =>
    have hopen : p.closed = false := hhandle
    rw [Prober.wake, hopen]
    exact ⟨job, live_move ⟨_, hstage, nofun⟩ nofun⟩
  | @report job _ _ hstage _ => exact ⟨job, live_move ⟨_, hstage, nofun⟩ nofun⟩
  | discard _ _ _ hclosed => cases hclosed.symm.trans hhandle
  | @follow _ next _ _ hstage _ henter =>
    obtain ⟨-, rfl, -⟩ := Roster.enter_eq_some_iff.mp henter
    have hfresh := (htidy.move ⟨_, hstage, nofun⟩ .leaving).fresh
    exact ⟨r.nextId, (live_add hfresh).mpr (Or.inl rfl)⟩
  | stop _ hend =>
    rcases hend with hnegative | hclosed
    · simp [Act.breaks, hnegative] at hdelay
    · cases hclosed.symm.trans hroster
  | @leave job hstage =>
    obtain ⟨other, stage, hother, hlive⟩ := h hhandle hroster
    refine ⟨other, live_remove.mpr ⟨?_, stage, hother, hlive⟩⟩
    rintro rfl
    exact hlive (Option.some.inj (hother.symm.trans hstage))

/-! ## The end -/

/-- It is all over with a check: no job of it can do more than to leave. -/
def Over (r : Roster) (p : Prober) : Prop :=
  r.closed = true ∨ ∀ job, ¬ p.Live job

/-- It is all over when no job is under way. -/
theorem Tidy.over_of_nil (h : Tidy r p) (hnone : r.pending = []) : Over r p := by
  cases hclosed : r.closed with
  | true => exact Or.inl hclosed
  | false =>
    refine Or.inr fun job ⟨stage, hstage, _⟩ => ?_
    have hin := mem_numbers.mpr ⟨stage, hstage⟩
    rw [show p.numbers = [] by simpa [hclosed, hnone] using h.pending.symm] at hin
    cases hin

/-- Once it is all over a turn reports nothing, enters no job and adds none to those under way. -/
theorem Turn.keeps_over (htidy : Tidy r p) (h : Over r p) (k : Turn r p act r' p') :
    Over r' p' ∧ act.reports = false ∧ act.entered? = none ∧ r'.pending ⊆ r.pending := by
  have hidle {job : Nat} (hheld : r.holds job = true) (hlive : p.Live job) : False := by
    rcases h with hclosed | hnone
    · cases hclosed.symm.trans (htidy.open_of_holds hheld)
    · exact hnone job hlive
  cases k with
  | outside => exact ⟨h, rfl, rfl, List.Subset.refl _⟩
  | retire => exact ⟨Or.inl rfl, rfl, rfl, List.nil_subset _⟩
  | retired _ => exact ⟨h, rfl, rfl, List.Subset.refl _⟩
  | close => exact ⟨h, rfl, rfl, List.Subset.refl _⟩
  | wake hheld hstage => exact (hidle hheld ⟨_, hstage, nofun⟩).elim
  | report _ hheld hstage _ => exact (hidle hheld ⟨_, hstage, nofun⟩).elim
  | discard _ hheld hstage _ => exact (hidle hheld ⟨_, hstage, nofun⟩).elim
  | follow hstage _ henter =>
    rcases h with hclosed | hnone
    · cases henter.symm.trans (Roster.enter_eq_none_iff.mpr hclosed)
    · exact (hnone _ ⟨_, hstage, nofun⟩).elim
  | stop hstage _ =>
    have hlive : p.Live _ := ⟨_, hstage, nofun⟩
    exact ⟨Or.inr (htidy.not_live_move_leaving hlive), rfl, rfl, List.Subset.refl _⟩
  | leave _ =>
    refine ⟨h.imp id fun hnone other hlive => hnone other (live_remove.mp hlive).2, rfl, rfl, ?_⟩
    exact fun other hother => (List.mem_filter.mp hother).1

/-- A negative delay is the end of the check. -/
theorem Turn.over_of_negative (htidy : Tidy r p) {job : Nat} {delay : Int64} {next : Option Nat}
    (hnegative : delay < 0) (k : Turn r p (.follow job delay next) r' p') :
    p.stage? job = some .told ∧ next = none ∧ Over r' p' := by
  cases k with
  | follow _ hdelay _ => exact absurd hnegative hdelay
  | stop hstage _ =>
    exact ⟨hstage, rfl, Or.inr (htidy.not_live_move_leaving ⟨_, hstage, nofun⟩)⟩

/-- Once the handle is closed it stays closed, and a turn reports nothing. -/
theorem Turn.closed (h : p.closed = true) (k : Turn r p act r' p') :
    p'.closed = true ∧ act.reports = false := by
  cases k with
  | close => exact ⟨rfl, rfl⟩
  | report _ _ _ hopen => cases h.symm.trans hopen
  | _ => exact ⟨h, rfl⟩

/-- The handle is closed by its close and the roster by the end of the watch, and neither by
anything else. -/
theorem Turn.closed_eq (k : Turn r p act r' p') :
    p'.closed = (p.closed || decide (act = .close)) ∧
      r'.closed = (r.closed || decide (act = .retire)) := by
  cases k with
  | retire => simp [Roster.close]
  | retired h => simp [h]
  | close => simp [Prober.close]
  | follow _ _ henter =>
    obtain ⟨-, -, rfl⟩ := Roster.enter_eq_some_iff.mp henter
    simp [Prober.add, Prober.move]
  | _ => simp [Prober.wake, Prober.move, Prober.remove, Roster.release]

/-! ## What one job does -/

/-- What a job that has come to a stage has done, in order; one without a stage has left, or its
number is not given yet. -/
inductive Course (job : Nat) : Option Stage → List Act → Prop where
  | unborn : Course job none []
  | waiting : Course job (some .waiting) []
  | probing : Course job (some .probing) [.wake job]
  /-- The handle was closed when its turn came. -/
  | idle : Course job (some .leaving) [.wake job]
  | told (healthy : Bool) : Course job (some .told) [.wake job, .report job healthy]
  /-- The handle was closed when its probe was over. -/
  | unheard (healthy : Bool) : Course job (some .leaving) [.wake job, .discard job healthy]
  | followed (healthy : Bool) (delay : Int64) (next : Option Nat) :
      Course job (some .leaving) [.wake job, .report job healthy, .follow job delay next]
  | left {acts : List Act} (h : Course job (some .leaving) acts) :
      Course job none (acts ++ [.leave job])

/-- A job that has told of its result has waited, probed and reported once. -/
theorem Course.eq_of_told {job : Nat} {past : List Act} (h : Course job (some .told) past) :
    ∃ healthy, past = [.wake job, .report job healthy] := by
  cases h with
  | told healthy => exact ⟨healthy, rfl⟩

/-- What a job does among some acts. -/
def deeds (acts : List Act) (job : Nat) : List Act :=
  acts.filter fun act => act.job? = some job

/-- A further act is a deed of its own job and of no other. -/
theorem deeds_concat (acts : List Act) (act : Act) (job : Nat) :
    deeds (acts ++ [act]) job = if act.job? = some job then deeds acts job ++ [act]
      else deeds acts job := by
  rw [deeds, List.filter_append]
  split <;> simp_all [deeds]

/-- Every job keeps to its course, and one whose number is not given yet has done nothing. -/
def OnCourse (r : Roster) (p : Prober) (acts : List Act) : Prop :=
  ∀ job, Course job (p.stage? job) (deeds acts job) ∧ (r.nextId ≤ job → deeds acts job = [])

/-- An act of a job takes it further on its course and leaves the others where they are. -/
theorem OnCourse.further (htidy : Tidy r p) {acts : List Act} (h : OnCourse r p acts) {job : Nat}
    {stage : Stage} (hstage : p.stage? job = some stage) (hjob : act.job? = some job)
    (hnext : r'.nextId = r.nextId)
    (hothers : ∀ other, other ≠ job → p'.stage? other = p.stage? other)
    (hcourse : ∀ past, Course job (some stage) past → Course job (p'.stage? job) (past ++ [act])) :
    OnCourse r' p' (acts ++ [act]) := by
  intro other
  rw [deeds_concat, hjob, hnext]
  by_cases heq : other = job
  · subst heq
    have hgiven : other < r.nextId := htidy.used other (mem_numbers.mpr ⟨stage, hstage⟩)
    rw [if_pos rfl]
    exact ⟨hcourse _ (hstage ▸ (h other).1), fun hlate => absurd hgiven (Nat.not_lt.mpr hlate)⟩
  · rw [if_neg (by simpa using Ne.symm heq), hothers other heq]
    exact h other

/-- An act that takes a job to its next stage keeps all jobs on their courses. -/
theorem OnCourse.move (htidy : Tidy r p) {acts : List Act} (h : OnCourse r p acts) {job : Nat}
    {old new : Stage} (hstage : p.stage? job = some old) (hjob : act.job? = some job)
    (hcourse : ∀ past, Course job (some old) past → Course job (some new) (past ++ [act])) :
    OnCourse r (p.move job new) (acts ++ [act]) := by
  refine h.further htidy hstage hjob rfl (fun other hne => ?_) ?_
  · rw [stage?_move, if_neg hne]
  · rw [stage?_move, if_pos rfl, hstage, Option.map_some]
    exact hcourse

/-- The number that is given next is of a job that has done nothing. -/
theorem OnCourse.add (htidy : Tidy r p) {acts : List Act} (h : OnCourse r p acts) {next : Nat}
    (henter : r.enter = some (next, r')) : OnCourse r' (p.add next) acts := by
  obtain ⟨-, rfl, rfl⟩ := Roster.enter_eq_some_iff.mp henter
  intro job
  rw [stage?_add]
  refine ⟨?_, fun hlate => (h job).2 (Nat.le_of_succ_le hlate)⟩
  split
  · rename_i heq
    subst heq
    rw [htidy.fresh, (h r.nextId).2 (Nat.le_refl _)]
    exact .waiting
  · rw [Option.or_none]
    exact (h job).1

/-- What a turn keeps: every job keeps to its course. -/
theorem Turn.onCourse (htidy : Tidy r p) {acts : List Act} (h : OnCourse r p acts)
    (k : Turn r p act r' p') : OnCourse r' p' (acts ++ [act]) := by
  cases k with
  | outside | retire | retired _ | close =>
    intro job
    rw [deeds_concat]
    exact h job
  | wake _ hstage =>
    refine h.move htidy hstage rfl ?_
    rintro _ ⟨⟩
    cases p.closed with
    | true => exact .idle
    | false => exact .probing
  | report healthy _ hstage _ =>
    refine h.move htidy hstage rfl ?_
    rintro _ ⟨⟩
    exact .told healthy
  | discard healthy _ hstage _ =>
    refine h.move htidy hstage rfl ?_
    rintro _ ⟨⟩
    exact .unheard healthy
  | @follow job next delay _ hstage _ henter =>
    have hmoved := htidy.move ⟨_, hstage, nofun⟩ .leaving
    refine OnCourse.add hmoved (h.move htidy hstage rfl ?_) henter
    intro past hpast
    obtain ⟨healthy, rfl⟩ := hpast.eq_of_told
    exact .followed healthy delay (some next)
  | @stop job delay hstage _ =>
    refine h.move htidy hstage rfl ?_
    intro past hpast
    obtain ⟨healthy, rfl⟩ := hpast.eq_of_told
    exact .followed healthy delay none
  | @leave job hstage =>
    refine h.further htidy hstage rfl rfl (fun other hne => ?_) ?_
    · rw [stage?_remove, if_neg hne]
    · rw [stage?_remove, if_pos rfl]
      exact fun past hpast => .left hpast

end HealthWatch.Prober
