import HealthWatch.Proofs.Supervisor.Force
import HealthWatch.Proofs.Supervisor.Releases
import HealthWatch.Proofs.Supervisor.Replay
import HealthWatch.Supervisor.Closing

/-!
# A supervisor and its owner

A supervisor leaves work to its owner. Each watch that passes let go is to be ended: its check is
told to stop, and when it has stopped the watch ends. Whoever closes the supervisor goes through the
stages of a closing call, and the call that begins the close ends the watches it takes out of force.
A `Household` is a supervisor with this work. All of it goes on side by side, so that anything can
happen between two turns of it.

`Sound` holds throughout: the supervisor lives a life (`Supervisor.Run`), each watch is in force or
its end has been called for, and only one call closes the supervisor.
-/

set_option autoImplicit false

namespace HealthWatch

/-- The watches that a closing call ends at this stage. -/
def CloseStage.taken : CloseStage → List Nat
  | .stopping watches => watches
  | _ => []

/-- Does a call at this stage close the supervisor itself? -/
def CloseStage.closes : CloseStage → Bool
  | .stopping _ | .leaving | .left => true
  | .entering | .awaiting | .over => false

/-- Does the event come from outside? The ends of watches and the close are the owner's work. -/
def Supervisor.Event.outside : Supervisor.Event → Bool
  | .retire _ | .beginClose | .finishClose => false
  | _ => true

/-- A supervisor with the work that it leaves to its owner. -/
structure Household (σ : Type) where
  supervisor : Supervisor σ
  /-- The watches whose end was called for and has not been taken up. -/
  due : List Nat := []
  /-- The watches whose checks were told to stop and have not stopped. -/
  stopping : List Nat := []
  ended : List Nat := []
  /-- The calls that close the supervisor. -/
  closers : List CloseStage := []

namespace Household

open Supervisor (Event)

/-- Something that happens in a household. -/
inductive Act where
  | event (event : Event)
  /-- The check of a watch is told to stop. -/
  | stop (watch : Nat)
  /-- The check of a watch has stopped, and the watch ends. -/
  | finish (watch : Nat)
  /-- Somebody closes the supervisor. -/
  | close
  /-- A closing call takes its next turn. -/
  | turn (closer : Nat)
  /-- The source is closed, as a closing call asked. -/
  | leave (closer : Nat)

/-- Is the check of the watch told to stop? -/
def Act.stops (watch : Nat) : Act → Bool
  | .stop i => i == watch
  | _ => false

/-- Is it the end of the watch? -/
def Act.finishes (watch : Nat) : Act → Bool
  | .finish i => i == watch
  | _ => false

variable {σ : Type}

/-- A household with a fresh supervisor. -/
def founded (terms : Terms) (strategy : σ) : Household σ :=
  { supervisor := Supervisor.fresh terms strategy }

/-- The watches whose end has been called for. -/
def issued (h : Household σ) : List Nat :=
  h.due ++ (h.stopping ++ h.ended)

/-- The supervisor has come to another state. The watches let go on the way are to be ended. -/
def follow (h : Household σ) (s : Supervisor σ) : Household σ :=
  { h with supervisor := s, due := h.due ++ s.released.drop h.supervisor.released.length }

/-- The end of a watch is taken up, and its check told to stop. -/
def stop (h : Household σ) (i : Nat) : Household σ :=
  { h with due := h.due.erase i, stopping := i :: h.stopping }

/-- A check has stopped, and its watch is at its end. -/
def finish (h : Household σ) (i : Nat) : Household σ :=
  { h with stopping := h.stopping.erase i, ended := i :: h.ended }

/-- Somebody sets about closing the supervisor. -/
def close (h : Household σ) : Household σ :=
  { h with closers := h.closers ++ [.entering] }

/-- A closing call comes to a stage, with the watches that it ends there. -/
def progress (h : Household σ) (k : Nat) (stage : CloseStage) : Household σ :=
  { h with closers := h.closers.set k stage, due := h.due ++ stage.taken }

variable [Strategy σ]

/-- One thing that happens and the states before and after it. Nobody closes a supervisor before its
start is over. -/
inductive Step (h : Household σ) : Act → Household σ → Prop where
  | event {event : Event} {t : Supervisor σ} (houtside : event.outside = true)
      (k : Supervisor.Step h.supervisor event t) : Step h (.event event) (h.follow t)
  | stop {i : Nat} (hdue : i ∈ h.due) : Step h (.stop i) (h.stop i)
  | finish {i : Nat} {t : Supervisor σ} (hstopping : i ∈ h.stopping)
      (k : h.supervisor.retire i = some t) : Step h (.finish i) ((h.finish i).follow t)
  | close (hstarted : h.supervisor.started = true) : Step h .close h.close
  | turn {k : Nat} {stage next : CloseStage} {t : Supervisor σ}
      (hstage : h.closers[k]? = some stage)
      (hturn : h.supervisor.closeTurn stage = some (next, t)) :
      Step h (.turn k) ((h.progress k next).follow t)
  | leave {k : Nat} (hstage : h.closers[k]? = some .leaving) :
      Step h (.leave k) (h.progress k .left)

/-- A sequence of things that happen, the latest last. -/
abbrev Run (h : Household σ) : List Act → Household σ → Prop :=
  HealthWatch.Run Step h

/-! ## Turns of a closing call -/

omit [Strategy σ] in
/-- The turns that a closing call takes. -/
inductive Turn (s : Supervisor σ) : CloseStage → CloseStage → Supervisor σ → Prop where
  | begin (hopen : s.closing = false) : Turn s .entering (.stopping s.barrier) s.beginClose.2
  | wait (hclosing : s.closing = true) : Turn s .entering .awaiting s
  | stopped {watches : List Nat} (hretired : s.allRetired watches = true) :
      Turn s (.stopping watches) .leaving s
  | finish : Turn s .left .over s.finishClose
  | join (hclosed : s.closed = true) : Turn s .awaiting .over s

omit [Strategy σ] in
/-- What a closing call does when its turn comes is one of its turns. -/
theorem turn_of_closeTurn {s t : Supervisor σ} {stage next : CloseStage}
    (h : s.closeTurn stage = some (next, t)) : Turn s stage next t := by
  unfold Supervisor.closeTurn at h
  split at h
  · split at h
    · rename_i hclosing
      cases h
      exact Turn.wait hclosing
    · rename_i hopen
      cases h
      exact Turn.begin (by simpa using hopen)
  · split at h
    · rename_i hretired
      cases h
      exact Turn.stopped hretired
    · cases h
  · cases h
    exact Turn.finish
  · split at h
    · rename_i hclosed
      cases h
      exact Turn.join hclosed
    · cases h
  · cases h
  · cases h

/-! ## The account of ends -/

/-- Each watch is in force or its end has been called for, once. -/
def Account (h : Household σ) : Prop :=
  (h.supervisor.barrier ++ h.issued).Perm (List.range h.supervisor.watches.length)

omit [Strategy σ] in
/-- An account of a household is one of its supervisor, in which the ends called for stand for the
watches that have left. -/
theorem Account.accounts {h : Household σ} (hs : h.Account) {gone : List Nat}
    (hgone : gone.Perm h.issued) : h.supervisor.Accounts h.supervisor.released gone := by
  refine ⟨[], (List.append_nil _).symm, ?_⟩
  rw [List.append_nil]
  exact (hgone.append_left _).trans hs

omit [Strategy σ] in
/-- With the ends of the watches let go on the way, the account is right again. -/
theorem account_follow {h : Household σ} {s : Supervisor σ}
    (hs : s.Accounts h.supervisor.released h.issued) : (h.follow s).Account := by
  obtain ⟨since, hsince, hperm⟩ := hs
  have hdue : (h.follow s).due = h.due ++ since := by simp [follow, hsince]
  have hissued : (h.follow s).issued.Perm (h.issued ++ since) := by
    rw [issued, issued, hdue, List.append_assoc, List.append_assoc]
    exact List.perm_append_comm.append_left h.due
  exact (hissued.append_left _).trans hperm

omit [Strategy σ] in
/-- To tell a check to stop calls for no further end. -/
theorem issued_stop {h : Household σ} {i : Nat} (hdue : i ∈ h.due) :
    (h.stop i).issued.Perm h.issued := by
  have hmoved : (i :: h.due.erase i).Perm h.due := (List.perm_cons_erase hdue).symm
  have hfront : (h.due.erase i ++ (i :: h.stopping ++ h.ended)).Perm
      (i :: h.due.erase i ++ (h.stopping ++ h.ended)) := List.perm_middle
  exact hfront.trans (hmoved.append_right _)

omit [Strategy σ] in
/-- The end of a watch calls for no further end. -/
theorem issued_finish {h : Household σ} {i : Nat} (hstopping : i ∈ h.stopping) :
    (h.finish i).issued.Perm h.issued := by
  have hmoved : (i :: h.stopping.erase i).Perm h.stopping :=
    (List.perm_cons_erase hstopping).symm
  have hfront : (h.stopping.erase i ++ i :: h.ended).Perm (i :: h.stopping.erase i ++ h.ended) :=
    List.perm_middle
  exact (hfront.trans (hmoved.append_right _)).append_left h.due

omit [Strategy σ] in
/-- No watch is both in force and called to its end, and none is called to it twice. -/
theorem Account.nodup {h : Household σ} (hs : h.Account) :
    (h.supervisor.barrier ++ h.issued).Nodup :=
  hs.nodup_iff.mpr List.nodup_range

omit [Strategy σ] in
/-- No watch is called to its end twice. -/
theorem Account.nodup_issued {h : Household σ} (hs : h.Account) : h.issued.Nodup :=
  (List.nodup_append.mp hs.nodup).2.1

omit [Strategy σ] in
/-- The end of a watch has been called for just if the watch is not in force. -/
theorem Account.mem_issued {h : Household σ} (hs : h.Account) {i : Nat} :
    i ∈ h.issued ↔ i < h.supervisor.watches.length ∧ i ∉ h.supervisor.barrier := by
  constructor
  · intro hi
    have hlt := List.mem_range.mp (hs.mem_iff.mp (List.mem_append_right _ hi))
    exact ⟨hlt, fun hin => (List.nodup_append.mp hs.nodup).2.2 i hin i hi rfl⟩
  · rintro ⟨hlt, hfree⟩
    have hin := hs.mem_iff.mpr (List.mem_range.mpr hlt)
    exact (List.mem_append.mp hin).resolve_left hfree

/-- The watch that ends is out of force. -/
theorem Account.retires {h : Household σ} (hs : h.Account) {i : Nat} {t : Supervisor σ}
    (hstopping : i ∈ h.stopping) (k : h.supervisor.retire i = some t) :
    i < h.supervisor.watches.length ∧ Supervisor.Step h.supervisor (.retire i) t := by
  have hissued : i ∈ h.issued := List.mem_append_right _ (List.mem_append_left _ hstopping)
  obtain ⟨hlt, hfree⟩ := hs.mem_issued.mp hissued
  exact ⟨hlt, Supervisor.Step.retire hfree k⟩

omit [Strategy σ] in
/-- A turn at which a call takes no watches calls for no further end. -/
theorem issued_progress {h : Household σ} {k : Nat} {stage : CloseStage}
    (htaken : stage.taken = []) : (h.progress k stage).issued = h.issued := by
  rw [issued, progress, htaken, List.append_nil]
  rfl

omit [Strategy σ] in
/-- The call that begins the close takes the watches in force, and other turns take none. -/
theorem Account.turn {h : Household σ} (hs : h.Account) {k : Nat} {stage next : CloseStage}
    {t : Supervisor σ} (m : Turn h.supervisor stage next t) :
    ((h.progress k next).follow t).Account := by
  have hsame := hs.accounts (List.Perm.refl h.issued)
  apply account_follow
  cases m with
  | begin hopen =>
    have htaken : (h.due ++ h.supervisor.barrier ++ (h.stopping ++ h.ended)).Perm
        (h.supervisor.barrier ++ h.issued) := by
      rw [issued, ← List.append_assoc h.supervisor.barrier]
      exact List.perm_append_comm.append_right _
    refine ⟨[], (List.append_nil _).symm, ?_⟩
    rw [List.append_nil]
    exact htaken.trans hs
  | wait hclosing =>
    rw [issued_progress rfl]
    exact hsame
  | stopped hretired =>
    rw [issued_progress rfl]
    exact hsame
  | finish =>
    rw [issued_progress rfl]
    exact hsame
  | join hclosed =>
    rw [issued_progress rfl]
    exact hsame

/-! ## What holds throughout -/

omit [Strategy σ] in
/-- An entry that is replaced counts no more, and the new one counts in its place. -/
theorem countP_set_add {α : Type} (p : α → Bool) {l : List α} {k : Nat} {a b : α}
    (h : l[k]? = some a) : (l.set k b).countP p + (p a).toNat = l.countP p + (p b).toNat := by
  obtain ⟨hk, rfl⟩ := List.getElem?_eq_some_iff.mp h
  rw [List.countP_set hk]
  cases hold : p l[k] with
  | false => cases p b <;> simp
  | true =>
    have hpos : 0 < l.countP p := List.countP_pos_iff.mpr ⟨l[k], List.getElem_mem hk, hold⟩
    cases p b <;> simp <;> omega

/-- The state of a household that began with a supervisor without candidates. -/
structure Sound (terms : Terms) (strategy : σ) (h : Household σ) : Prop where
  lives : ∃ events, Supervisor.Run (Supervisor.fresh terms strategy) events h.supervisor
  account : h.Account
  retired : ∀ i, h.supervisor.isRetired i = h.ended.contains i
  /-- One call closes the supervisor, from the beginning of the close to its end. -/
  closer : h.closers.countP CloseStage.closes + h.supervisor.closed.toNat =
    h.supervisor.closing.toNat
  started : h.closers ≠ [] ∨ h.supervisor.closing = true → h.supervisor.started = true

namespace Sound

variable {terms : Terms} {strategy : σ} {h : Household σ}

/-- Between two acts no passes are under way. -/
theorem refreshing (hs : h.Sound terms strategy) : h.supervisor.refreshing = false := by
  obtain ⟨events, r⟩ := hs.lives
  exact r.refreshing

/-- A household begins with no watch and nothing to do. -/
theorem founded : (founded terms strategy).Sound terms strategy where
  lives := ⟨[], Run.nil⟩
  account := List.Perm.refl []
  retired _ := rfl
  closer := rfl
  started := by
    rintro (hcalled | hclosing)
    · exact absurd rfl hcalled
    · cases hclosing

/-- An event outside the close, by which the account and the ends stay right. -/
theorem follow (hs : h.Sound terms strategy) {event : Event} {t : Supervisor σ}
    (k : Supervisor.Step h.supervisor event t) (hbegin : event ≠ .beginClose)
    (hfinish : event ≠ .finishClose) {g : Household σ} (hg : g.supervisor = h.supervisor)
    (hclosers : g.closers = h.closers) (hissued : g.issued.Perm h.issued)
    (hretired : ∀ i, t.isRetired i = g.ended.contains i) : (g.follow t).Sound terms strategy := by
  obtain ⟨events, r⟩ := hs.lives
  have hflags : t.closing = h.supervisor.closing ∧ t.closed = h.supervisor.closed ∧
      (h.supervisor.started = true → t.started = true) := by
    rcases k.steady_cases hs.refreshing with hsteady | ⟨-, rfl⟩ | ⟨rfl, -⟩ | ⟨rfl, -⟩
    · exact ⟨hsteady.closing, hsteady.closed, hsteady.started.trans⟩
    · have hsteady := Supervisor.Steady.republish { h.supervisor with started := true }
      exact ⟨hsteady.closing, hsteady.closed, fun _ => hsteady.started⟩
    · exact absurd rfl hbegin
    · exact absurd rfl hfinish
  obtain ⟨hclosing, hclosed, hstarted⟩ := hflags
  refine ⟨⟨_, r.snoc k⟩, ?_, hretired, ?_, ?_⟩
  · apply account_follow
    rw [hg]
    exact k.accounts hs.refreshing hbegin (hs.account.accounts hissued)
  · show g.closers.countP CloseStage.closes + t.closed.toNat = t.closing.toNat
    rw [hclosers, hclosed, hclosing]
    exact hs.closer
  · intro hcalled
    refine hstarted (hs.started ?_)
    rw [← hclosers, ← hclosing]
    exact hcalled

/-- An event from outside leaves a household sound. -/
theorem event (hs : h.Sound terms strategy) {event : Event} {t : Supervisor σ}
    (houtside : event.outside = true) (k : Supervisor.Step h.supervisor event t) :
    (h.follow t).Sound terms strategy := by
  have hother (other : Event) (hinside : other.outside = false) : event ≠ other := by
    rintro rfl
    cases hinside.symm.trans houtside
  have hretired (i : Nat) : t.isRetired i = h.ended.contains i := by
    rcases k.isRetired_cases hs.refreshing with hsame | ⟨j, hend, -⟩
    · exact (congrFun hsame i).trans (hs.retired i)
    · exact absurd hend (hother _ rfl)
  exact hs.follow k (hother _ rfl) (hother _ rfl) rfl rfl (List.Perm.refl _) hretired

/-- The end of a watch whose check has stopped leaves a household sound. -/
theorem finish (hs : h.Sound terms strategy) {i : Nat} {t : Supervisor σ}
    (hstopping : i ∈ h.stopping) (k : h.supervisor.retire i = some t) :
    ((h.finish i).follow t).Sound terms strategy := by
  obtain ⟨hlt, hstep⟩ := hs.account.retires hstopping k
  have hretired (j : Nat) : t.isRetired j = (i :: h.ended).contains j := by
    rw [Supervisor.isRetired_of_retire hs.refreshing hlt k, hs.retired j, List.contains_cons,
      Bool.or_comm]
  exact hs.follow hstep nofun nofun rfl rfl (issued_finish hstopping) hretired

/-- Where a call closes the supervisor, the close has begun and is not over. -/
theorem closing_of_closes (hs : h.Sound terms strategy) {stage : CloseStage}
    (hstage : stage ∈ h.closers) (hcloses : stage.closes = true) :
    h.supervisor.closing = true ∧ h.supervisor.closed = false := by
  have hpos : 0 < h.closers.countP CloseStage.closes :=
    List.countP_pos_iff.mpr ⟨stage, hstage, hcloses⟩
  have hcloser := hs.closer
  cases hclosing : h.supervisor.closing with
  | false =>
    rw [hclosing, Bool.toNat_false] at hcloser
    omega
  | true =>
    cases hclosed : h.supervisor.closed with
    | false => exact ⟨rfl, rfl⟩
    | true =>
      rw [hclosing, hclosed, Bool.toNat_true] at hcloser
      omega

/-- The turn of a closing call leaves a household sound. -/
theorem turn (hs : h.Sound terms strategy) {k : Nat} {stage next : CloseStage} {t : Supervisor σ}
    (hstage : h.closers[k]? = some stage) (m : Turn h.supervisor stage next t) :
    ((h.progress k next).follow t).Sound terms strategy := by
  obtain ⟨events, r⟩ := hs.lives
  have hcalled : h.closers ≠ [] := by
    intro hnone
    rw [hnone] at hstage
    cases hstage
  have hstarted := hs.started (Or.inl hcalled)
  have hcount : ((h.progress k next).follow t).closers.countP CloseStage.closes +
      stage.closes.toNat = h.closers.countP CloseStage.closes + next.closes.toNat :=
    countP_set_add CloseStage.closes hstage
  have hcloser := hs.closer
  have haccount := hs.account.turn (k := k) m
  cases m with
  | begin hopen =>
    refine ⟨⟨_, r.snoc (.beginClose hopen)⟩, haccount, hs.retired, ?_, fun _ => hstarted⟩
    -- nobody was closing, and now this call is
    rw [hopen] at hcloser
    show _ + h.supervisor.closed.toNat = true.toNat
    simp only [CloseStage.closes, Bool.toNat_true, Bool.toNat_false] at hcount hcloser ⊢
    omega
  | wait hclosing =>
    refine ⟨⟨_, r⟩, haccount, hs.retired, ?_, fun _ => hstarted⟩
    exact (congrArg (· + _) (Nat.add_right_cancel hcount)).trans hcloser
  | stopped hretired =>
    refine ⟨⟨_, r⟩, haccount, hs.retired, ?_, fun _ => hstarted⟩
    exact (congrArg (· + _) (Nat.add_right_cancel hcount)).trans hcloser
  | finish =>
    have hclosing := (hs.closing_of_closes (List.mem_of_getElem? hstage) rfl).1
    simp only [CloseStage.closes, Bool.toNat_true, Bool.toNat_false] at hcount
    refine ⟨⟨_, r.snoc (.finishClose hclosing)⟩, haccount, hs.retired, ?_, fun _ => hstarted⟩
    -- this call was closing, so the supervisor was not closed
    rw [hclosing] at hcloser
    show _ + true.toNat = h.supervisor.closing.toNat
    rw [hclosing]
    simp only [Bool.toNat_true] at hcloser ⊢
    omega
  | join hclosed =>
    refine ⟨⟨_, r⟩, haccount, hs.retired, ?_, fun _ => hstarted⟩
    exact (congrArg (· + _) (Nat.add_right_cancel hcount)).trans hcloser

/-- Whatever happens in a household leaves it sound. -/
theorem step (hs : h.Sound terms strategy) {act : Act} {g : Household σ} (k : Step h act g) :
    g.Sound terms strategy := by
  cases k with
  | event houtside k => exact hs.event houtside k
  | stop hdue =>
    have hmoved := (issued_stop hdue).append_left h.supervisor.barrier
    exact ⟨hs.lives, hmoved.trans hs.account, hs.retired, hs.closer, hs.started⟩
  | finish hstopping k => exact hs.finish hstopping k
  | close hstarted =>
    have hcount : h.close.closers.countP CloseStage.closes =
        h.closers.countP CloseStage.closes := by
      simp [Household.close, CloseStage.closes]
    refine ⟨hs.lives, hs.account, hs.retired, ?_, fun _ => hstarted⟩
    exact (congrArg (· + _) hcount).trans hs.closer
  | turn hstage hturn => exact hs.turn hstage (turn_of_closeTurn hturn)
  | @leave k hstage =>
    have hcount : (h.progress k .left).closers.countP CloseStage.closes =
        h.closers.countP CloseStage.closes := by
      have hset := countP_set_add CloseStage.closes (b := .left) hstage
      exact Nat.add_right_cancel hset
    refine ⟨hs.lives, ?_, hs.retired, ?_, ?_⟩
    · rw [Account, issued_progress (by simp [CloseStage.taken])]
      exact hs.account
    · exact (congrArg (· + _) hcount).trans hs.closer
    · intro hcalled
      refine hs.started (hcalled.imp_left fun hsome hnone => hsome ?_)
      simp [progress, hnone]

/-- A household stays sound throughout. -/
theorem run (hs : h.Sound terms strategy) {acts : List Act} {g : Household σ} (r : Run h acts g) :
    g.Sound terms strategy := by
  induction r with
  | nil => exact hs
  | snoc _ k ih => exact ih.step k

end Sound

/-! ## The supervisor's own life -/

/-- What happens in a household is an event at the supervisor, or leaves the supervisor as it is. -/
theorem Step.supervisor_cases {terms : Terms} {strategy : σ} {h g : Household σ} {act : Act}
    (k : Step h act g) (hs : h.Sound terms strategy) :
    g.supervisor = h.supervisor ∨ ∃ event, Supervisor.Step h.supervisor event g.supervisor := by
  cases k with
  | event _ k => exact Or.inr ⟨_, k⟩
  | finish hstopping k => exact Or.inr ⟨_, (hs.account.retires hstopping k).2⟩
  | turn hstage hturn =>
    cases turn_of_closeTurn hturn with
    | begin hopen => exact Or.inr ⟨_, Supervisor.Step.beginClose hopen⟩
    | finish =>
      obtain ⟨hclosing, -⟩ := hs.closing_of_closes (List.mem_of_getElem? hstage) rfl
      exact Or.inr ⟨_, Supervisor.Step.finishClose hclosing⟩
    | _ => exact Or.inl rfl
  | _ => exact Or.inl rfl

/-- What happens in a household is a part of its supervisor's life. -/
theorem Run.supervisor {terms : Terms} {strategy : σ} {h g : Household σ} {acts : List Act}
    (r : Run h acts g) (hs : h.Sound terms strategy) :
    ∃ events, Supervisor.Run h.supervisor events g.supervisor := by
  induction r with
  | nil => exact ⟨[], Run.nil⟩
  | snoc r k ih =>
    obtain ⟨events, hevents⟩ := ih
    rcases k.supervisor_cases (hs.run r) with hsame | ⟨event, hevent⟩
    · exact ⟨events, hsame ▸ hevents⟩
    · exact ⟨_, hevents.snoc hevent⟩

/-! ## Replaying -/

/-- What something comes to, with a bound on the passes. -/
def replayAct (n : Nat) (h : Household σ) : Act → Option (Household σ)
  | .event event =>
    if event.outside then (h.supervisor.replayEvent n event).map h.follow else none
  | .stop i => if i ∈ h.due then some (h.stop i) else none
  | .finish i =>
    if i ∈ h.stopping then (h.supervisor.replayEvent n (.retire i)).map (h.finish i).follow
    else none
  | .close => if h.supervisor.started then some h.close else none
  | .turn k =>
    (h.closers[k]?).bind fun stage => (h.supervisor.closeTurn stage).map fun outcome =>
      (h.progress k outcome.1).follow outcome.2
  | .leave k => if h.closers[k]? = some .leaving then some (h.progress k .left) else none

/-- What some acts come to, with a bound on the passes of each event. -/
def replay (n : Nat) (h : Household σ) (acts : List Act) : Option (Household σ) :=
  acts.foldlM (replayAct n) h

/-- An act that can be replayed is a step. -/
theorem step_of_replayAct {n : Nat} {h g : Household σ} (hrest : h.supervisor.refreshing = false)
    {act : Act} (hg : h.replayAct n act = some g) : Step h act g := by
  unfold replayAct at hg
  cases act with
  | event event =>
    dsimp only at hg
    split at hg
    · rename_i houtside
      obtain ⟨t, ht, rfl⟩ := Option.map_eq_some_iff.mp hg
      exact Step.event houtside (Supervisor.step_of_replayEvent hrest ht)
    · cases hg
  | stop i =>
    dsimp only at hg
    split at hg
    · rename_i hdue
      cases hg
      exact Step.stop hdue
    · cases hg
  | finish i =>
    dsimp only at hg
    split at hg
    · rename_i hstopping
      obtain ⟨t, ht, rfl⟩ := Option.map_eq_some_iff.mp hg
      cases Supervisor.step_of_replayEvent hrest ht with
      | retire _ hretire => exact Step.finish hstopping hretire
    · cases hg
  | close =>
    dsimp only at hg
    split at hg
    · rename_i hstarted
      cases hg
      exact Step.close hstarted
    · cases hg
  | turn k =>
    obtain ⟨stage, hstage, hg⟩ := Option.bind_eq_some_iff.mp hg
    obtain ⟨⟨next, t⟩, hturn, rfl⟩ := Option.map_eq_some_iff.mp hg
    exact Step.turn hstage hturn
  | leave k =>
    dsimp only at hg
    split at hg
    · rename_i hstage
      cases hg
      exact Step.leave hstage
    · cases hg

/-- What is replayed is a run. -/
theorem run_of_replay {terms : Terms} {strategy : σ} {n : Nat} {h g : Household σ}
    (hs : h.Sound terms strategy) {acts : List Act} (hg : h.replay n acts = some g) :
    Run h acts g := by
  refine Run.of_foldlM (P := fun i => i.Sound terms strategy) (fun _ hi hj => ?_) hs hg
  have hstep := step_of_replayAct hi.refreshing hj
  exact ⟨hstep, hi.step hstep⟩

/-- A relation between two states that a replay goes through is one between two states of some run.
-/
theorem exists_runs_of_replay {n : Nat} {terms : Terms} {strategy : σ} {acts later : List Act}
    {P : Household σ → Household σ → Prop} [∀ h g, Decidable (P h g)]
    (hP : ((founded terms strategy).replay n acts).any
      (fun h => (h.replay n later).any (fun g => P h g)) = true) :
    ∃ h g, Run (founded terms strategy) acts h ∧ Run h later g ∧ P h g := by
  obtain ⟨h, hh, hmore⟩ := (Option.any_eq_true _ _).mp hP
  obtain ⟨g, hg, hholds⟩ := (Option.any_eq_true _ _).mp hmore
  have hrun : Run (founded terms strategy) acts h := run_of_replay Sound.founded hh
  exact ⟨h, g, hrun, run_of_replay (Sound.founded.run hrun) hg, of_decide_eq_true hholds⟩

end Household

end HealthWatch
