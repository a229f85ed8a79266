import HealthWatch.Crew
import Mathlib.Data.List.Nodup

/-!
# What happens to the jobs of a watch

A `Turn` is one thing that happens, as the jobs of a watch and its roster see it: a job is scheduled
or refused, a step of a job begins or ends, a job is cancelled, or the watch comes to its end. Steps
of different jobs overlap, and anything may happen between the two ends of a step: it may schedule
and cancel other jobs, or its own.

What was done to the jobs accounts for their state (`Turn.accounts`): the roster of a watch that is
not retired holds the jobs that were scheduled and have neither ended nor been cancelled, and a job
is at rest when it has ended or was cancelled, or the watch is retired.
-/

set_option autoImplicit false

namespace HealthWatch

/-- Does a job come to an end by itself? -/
def Rhythm.ends : Rhythm → Bool
  | once _ => true
  | _ => false

namespace Crew

/-- Something that happens to the jobs of a watch. -/
inductive Act where
  /-- Something that has nothing to do with them. -/
  | outside
  /-- The watch comes to its end. -/
  | retire
  /-- A job is to be scheduled; it gets a number, or is refused. -/
  | schedule (rhythm : Rhythm) (number : Option Nat)
  /-- A step of a job begins. -/
  | start (number : Nat)
  /-- A step of a job ends, and the job waits. -/
  | pause (number : Nat)
  /-- The last step of a job ends. -/
  | finish (number : Nat)
  | cancel (number : Nat)
deriving DecidableEq

namespace Act

/-- The number of the job that is scheduled. -/
def accepted? : Act → Option Nat
  | schedule _ number => number
  | _ => none

/-- Does a job end, or is it cancelled? -/
def removes (number : Nat) : Act → Bool
  | finish other | cancel other => number == other
  | _ => false

end Act

/-- The numbers of the jobs that were scheduled. -/
def accepted (acts : List Act) : List Nat :=
  acts.filterMap Act.accepted?

/-- Has a job ended or been cancelled? -/
def gone (acts : List Act) (number : Nat) : Bool :=
  acts.any (Act.removes number)

/-- A further act adds the number that it gives, if it gives one. -/
theorem accepted_concat (acts : List Act) (act : Act) :
    accepted (acts ++ [act]) = accepted acts ++ act.accepted?.toList := by
  rw [accepted, List.filterMap_append]
  cases h : act.accepted? <;> simp [accepted, h]

/-- A job is gone after two stretches of acts if one of them has removed it. -/
theorem gone_append (acts later : List Act) (n : Nat) :
    gone (acts ++ later) n = (gone acts n || gone later n) :=
  List.any_append

/-- A job is gone after a further act if it was gone before or the act removes it. -/
theorem gone_concat (acts : List Act) (act : Act) (n : Nat) :
    gone (acts ++ [act]) n = (gone acts n || act.removes n) := by
  rw [gone_append]
  simp [gone]

/-- One act and what it does to the roster of the watch and to its crew. -/
inductive Turn (r : Roster) (c : Crew) : Act → Roster → Crew → Prop where
  | outside : Turn r c .outside r c
  | retire : Turn r c .retire r.close (c.stop r.pending)
  /-- A watch ends only once. -/
  | retired (h : r.closed = true) : Turn r c .retire r (c.stop r.pending)
  | accept {rhythm : Rhythm} {number : Nat} {entered : Roster}
      (hperiod : rhythm.hasZeroPeriod = false) (henter : r.enter = some (number, entered)) :
      Turn r c (.schedule rhythm (some number)) entered (c.add number rhythm)
  | refuse {rhythm : Rhythm} (h : rhythm.hasZeroPeriod = true ∨ r.closed = true) :
      Turn r c (.schedule rhythm none) r c
  | start {number : Nat} (hready : c.ready number = true) :
      Turn r c (.start number) r (c.start number)
  | pause {number : Nat} {j : Job} (hjob : c.job? number = some j) (hrunning : j.stage = .running) :
      Turn r c (.pause number) r (c.pause number)
  | finish {number : Nat} {j : Job} (hjob : c.job? number = some j)
      (hrunning : j.stage = .running) (hends : j.rhythm.ends = true) :
      Turn r c (.finish number) (r.release number) (c.move number .over)
  | cancel {number : Nat} (hknown : number ∈ c.numbers) :
      Turn r c (.cancel number) (r.release number) (c.stop [number])

/-- What was done to the jobs of a watch accounts for its roster and its crew. -/
structure Accounts (acts : List Act) (r : Roster) (c : Crew) : Prop where
  numbers : c.numbers = accepted acts
  nodup : (accepted acts).Nodup
  /-- Only numbers that were given are in use. -/
  used : ∀ n ∈ accepted acts, n < r.nextId
  known : ∀ n, gone acts n = true → n ∈ accepted acts
  closed : r.closed = acts.contains .retire
  pending : r.pending =
    if r.closed then [] else (accepted acts).filter fun n => !gone acts n
  atRest : ∀ {n j}, c.job? n = some j → j.atRest = (gone acts n || r.closed)

namespace Accounts

variable {acts : List Act} {act : Act} {r : Roster} {c : Crew}

/-- A new roster and a crew without jobs are accounted for by no acts at all. -/
theorem of_fresh {watch : Nat} : Accounts [] {} { watch := watch } := by
  constructor <;> simp [accepted, gone, Crew.numbers, job?]

/-- An act that schedules no job and does not end the watch takes those jobs out of the roster that
it removes, and they come to rest. -/
theorem change (h : Accounts acts r c) {r' : Roster} {d : Crew} (haccepted : act.accepted? = none)
    (hretire : act ≠ .retire) (hknown : ∀ n, act.removes n = true → n ∈ c.numbers)
    (hnextId : r'.nextId = r.nextId) (hclosed : r'.closed = r.closed)
    (hpending : r'.pending = r.pending.filter fun n => !act.removes n)
    (hnumbers : d.numbers = c.numbers)
    (hatRest : ∀ {n j}, d.job? n = some j →
      ∃ k, c.job? n = some k ∧ j.atRest = (k.atRest || act.removes n)) :
    Accounts (acts ++ [act]) r' d := by
  have hsame : accepted (acts ++ [act]) = accepted acts := by
    rw [accepted_concat, haccepted, Option.toList_none, List.append_nil]
  constructor
  case numbers => rw [hsame, hnumbers, h.numbers]
  case nodup => exact hsame ▸ h.nodup
  case used => exact hsame ▸ hnextId ▸ h.used
  case known =>
    intro n hn
    rw [gone_concat, Bool.or_eq_true] at hn
    rw [hsame]
    exact hn.elim (h.known n) fun hremoved => h.numbers ▸ hknown n hremoved
  case closed => simpa [hclosed, Ne.symm hretire] using h.closed
  case pending =>
    rw [hpending, hclosed, h.pending, hsame]
    cases r.closed with
    | true => rfl
    | false =>
      simp only [Bool.false_eq_true, if_false, List.filter_filter]
      exact List.filter_congr fun n _ => by rw [gone_concat, Bool.not_or, Bool.and_comm]
  case atRest =>
    intro n j hj
    obtain ⟨k, hk, hrest⟩ := hatRest hj
    rw [hrest, h.atRest hk, hclosed, gone_concat]
    ac_rfl

/-- An act that has nothing to do with the roster leaves it. -/
theorem quiet (h : Accounts acts r c) {d : Crew} (haccepted : act.accepted? = none)
    (hretire : act ≠ .retire) (hremoves : ∀ n, act.removes n = false)
    (hnumbers : d.numbers = c.numbers)
    (hatRest : ∀ {n j}, d.job? n = some j → ∃ k, c.job? n = some k ∧ j.atRest = k.atRest) :
    Accounts (acts ++ [act]) r d := by
  refine h.change haccepted hretire ?_ rfl rfl ?_ hnumbers ?_
  · intro n hn
    cases (hremoves n).symm.trans hn
  · simp [hremoves]
  · intro n j hj
    obtain ⟨k, hk, hrest⟩ := hatRest hj
    exact ⟨k, hk, by rw [hrest, hremoves, Bool.or_false]⟩

/-- So does a job that comes to another stage without being over. -/
theorem move (h : Accounts acts r c) {number : Nat} {stage : Job.Stage} {k : Job}
    (hjob : c.job? number = some k) (hold : k.stage ≠ .over) (hnew : stage ≠ .over)
    (haccepted : act.accepted? = none) (hretire : act ≠ .retire)
    (hremoves : ∀ n, act.removes n = false) :
    Accounts (acts ++ [act]) r (c.move number stage) := by
  refine h.quiet haccepted hretire hremoves (numbers_move _ _ _) ?_
  intro n j hj
  rw [job?_move] at hj
  obtain ⟨i, hi, rfl⟩ := Option.map_eq_some_iff.mp hj
  refine ⟨i, hi, ?_⟩
  split
  · rename_i heq
    rw [eq_of_beq heq, hjob] at hi
    cases hi
    exact Job.atRest_move hold hnew
  · rfl

/-- A job that ends or is cancelled leaves the roster and is at rest. -/
theorem remove (h : Accounts acts r c) {number : Nat} {d : Crew} {f : Job → Job}
    (hknown : number ∈ c.numbers) (haccepted : act.accepted? = none) (hretire : act ≠ .retire)
    (hremoves : ∀ n, act.removes n = (n == number)) (hnumbers : d.numbers = c.numbers)
    (hd : ∀ n, d.job? n = (c.job? n).map fun j => if n == number then f j else j)
    (hf : ∀ j, (f j).atRest = true) : Accounts (acts ++ [act]) (r.release number) d := by
  refine h.change haccepted hretire ?_ rfl rfl ?_ hnumbers ?_
  · intro n hn
    rw [hremoves] at hn
    exact (eq_of_beq hn).symm ▸ hknown
  · exact List.filter_congr fun n _ => by rw [hremoves, bne]
  · intro n j hj
    rw [hd] at hj
    obtain ⟨k, hk, rfl⟩ := Option.map_eq_some_iff.mp hj
    refine ⟨k, hk, ?_⟩
    rw [hremoves]
    split
    · rename_i heq
      rw [hf, heq, Bool.or_true]
    · rename_i hne
      rw [Bool.eq_false_iff.mpr hne, Bool.or_false]

/-- The number that is given next is of no job. -/
theorem fresh (h : Accounts acts r c) : r.nextId ∉ accepted acts :=
  fun hin => Nat.lt_irrefl _ (h.used _ hin)

/-- Taking a job is accounted for: its number is new, it is in the roster and it is not at rest. -/
theorem accept (h : Accounts acts r c) {rhythm : Rhythm} {number : Nat} {entered : Roster}
    (henter : r.enter = some (number, entered)) :
    Accounts (acts ++ [.schedule rhythm (some number)]) entered (c.add number rhythm) := by
  obtain ⟨hopen, rfl, rfl⟩ := Roster.enter_eq_some_iff.mp henter
  have haccepted : accepted (acts ++ [.schedule rhythm (some r.nextId)]) =
      accepted acts ++ [r.nextId] := accepted_concat _ _
  have hgone (n : Nat) : gone (acts ++ [.schedule rhythm (some r.nextId)]) n = gone acts n :=
    (gone_concat _ _ n).trans (Bool.or_false _)
  have hthere : gone acts r.nextId = false :=
    Bool.eq_false_iff.mpr fun hgone => h.fresh (h.known _ hgone)
  constructor
  case numbers => rw [numbers_add, h.numbers, haccepted]
  case nodup =>
    rw [haccepted]
    exact List.nodup_append.mpr ⟨h.nodup, by simp, by
      simpa using fun n hn => Nat.ne_of_lt (h.used n hn)⟩
  case used =>
    intro n hn
    rw [haccepted, List.mem_append, List.mem_singleton] at hn
    rcases hn with hn | rfl
    · exact Nat.lt_succ_of_lt (h.used n hn)
    · exact Nat.lt_succ_self _
  case known =>
    intro n hn
    rw [haccepted]
    exact List.mem_append_left _ (h.known n (hgone n ▸ hn))
  case closed => simpa using h.closed
  case pending => simp [h.pending, hopen, haccepted, hgone, hthere]
  case atRest =>
    intro n j hj
    rw [job?_add] at hj
    rw [hgone]
    rcases Option.or_eq_some_iff.mp hj with hold | ⟨-, hnew⟩
    · exact h.atRest hold
    · obtain ⟨rfl, hsame⟩ := Option.ite_none_right_eq_some.mp hnew
      rw [← Option.some.inj hsame, hthere, hopen]
      rfl

/-- The end of the watch is accounted for: it empties the roster and brings every job in it to rest.
-/
theorem retire (h : Accounts acts r c) :
    Accounts (acts ++ [.retire]) r.close (c.stop r.pending) := by
  have haccepted : accepted (acts ++ [.retire]) = accepted acts :=
    (accepted_concat _ _).trans (List.append_nil _)
  have hgone (n : Nat) : gone (acts ++ [.retire]) n = gone acts n :=
    (gone_concat _ _ n).trans (Bool.or_false _)
  constructor
  case numbers => rw [numbers_stop, h.numbers, haccepted]
  case nodup => exact haccepted ▸ h.nodup
  case used => exact haccepted ▸ h.used
  case known =>
    intro n hn
    rw [haccepted]
    exact h.known n (hgone n ▸ hn)
  case closed => simp [Roster.close]
  case pending => rfl
  case atRest =>
    intro n j hj
    rw [job?_stop] at hj
    obtain ⟨k, hk, rfl⟩ := Option.map_eq_some_iff.mp hj
    show _ = (_ || true)
    rw [Bool.or_true]
    split
    · exact k.atRest_stop
    · rename_i hpending
      -- What is not under way has gone before, if the watch has not been retired before.
      rw [h.atRest hk]
      have hin : n ∈ accepted acts := h.numbers ▸ mem_numbers.mpr ⟨k, hk⟩
      cases hclosed : r.closed with
      | true => exact Bool.or_true _
      | false => simpa [h.pending, hclosed, hin] using hpending

/-- A job is under way just as long as a further step of it is to come. -/
theorem mem_pending_iff (h : Accounts acts r c) {n : Nat} :
    n ∈ r.pending ↔ ∃ j, c.job? n = some j ∧ j.atRest = false := by
  have hjobs : n ∈ accepted acts ↔ ∃ j, c.job? n = some j := h.numbers ▸ mem_numbers
  rw [h.pending]
  constructor
  · intro hn
    split at hn
    · cases hn
    · rename_i hopen
      obtain ⟨hin, hgone⟩ := List.mem_filter.mp hn
      obtain ⟨j, hjob⟩ := hjobs.mp hin
      exact ⟨j, hjob, by rw [h.atRest hjob]; simpa [hopen] using hgone⟩
  · rintro ⟨j, hjob, hrest⟩
    obtain ⟨hgone, hopen⟩ := Bool.or_eq_false_iff.mp ((h.atRest hjob).symm.trans hrest)
    rw [hopen, if_neg Bool.false_ne_true]
    exact List.mem_filter.mpr ⟨hjobs.mpr ⟨j, hjob⟩, by rw [hgone]; rfl⟩

/-- So a job that waits is run again just as long as it is in the roster. -/
theorem ready_eq (h : Accounts acts r c) {n : Nat} {j : Job} (hjob : c.job? n = some j)
    (hwaits : j.stage = .waiting) : c.ready n = r.holds n := by
  have hin : n ∈ r.pending ↔ j.atRest = false := by
    rw [h.mem_pending_iff]
    simp [hjob]
  rw [ready, hjob, Option.any_some, Job.ready_of_waiting hwaits, Roster.holds,
    Bool.eq_iff_iff, List.contains_iff_mem, hin, Bool.not_eq_true']

end Accounts

variable {acts : List Act} {act : Act} {r r' : Roster} {c c' : Crew}

/-- What a turn keeps: what was done accounts for the roster and the crew. -/
theorem Turn.accounts (h : Accounts acts r c) (k : Turn r c act r' c') :
    Accounts (acts ++ [act]) r' c' := by
  cases k with
  | outside => exact h.quiet rfl nofun (fun _ => rfl) rfl fun hj => ⟨_, hj, rfl⟩
  | retire => exact h.retire
  | retired hclosed =>
    have hempty : r.pending = [] := by rw [h.pending, if_pos hclosed]
    have hsame : r.close = r := by rw [Roster.close, ← hempty, ← hclosed]
    exact hsame ▸ h.retire
  | accept _ henter => exact h.accept henter
  | refuse _ => exact h.quiet rfl nofun (fun _ => rfl) rfl fun hj => ⟨_, hj, rfl⟩
  | start hready =>
    obtain ⟨j, hjob, hj⟩ := (Option.any_eq_true _ _).mp hready
    exact h.move hjob (by rw [Job.stage_of_ready hj]; nofun) nofun rfl nofun fun _ => rfl
  | pause hjob hrunning =>
    exact h.move hjob (by rw [hrunning]; nofun) nofun rfl nofun fun _ => rfl
  | @finish number j hjob hrunning =>
    exact h.remove (mem_numbers.mpr ⟨j, hjob⟩) rfl nofun (fun _ => rfl) (numbers_move _ _ _)
      (job?_move _ _ _) Job.atRest_move_over
  | cancel hknown =>
    refine h.remove hknown rfl nofun (fun _ => rfl) (numbers_stop _ _) ?_ Job.atRest_stop
    intro n
    rw [job?_stop]
    simp

end Crew

end HealthWatch
