import HealthWatch.Proofs.Supervisor.Attendance
import HealthWatch.Proofs.Supervisor.Household

/-!
# What the close leaves behind

The call that closes a supervisor waits for the watches that it takes out of force, then has the
source closed, and closes the published feed at last. It does not wait for watches that passes had
let go before. So when the source is being closed all watches have ended, and nothing is published
from then on, exactly if no end of a watch is outstanding at that moment.
-/

set_option autoImplicit false

namespace HealthWatch

variable {σ : Type} [Strategy σ]

namespace Supervisor

/-! ## Jobs of retired watches -/

/-- No job of a retired watch is under way. -/
def Cleared (s : Supervisor σ) : Prop :=
  ∀ (i : Nat) (w : Watch), s.watches[i]? = some w → w.retired = true → w.roster.pending = []

omit [Strategy σ] in
/-- A change of a watch that leaves no jobs to a retired one leaves none to any. -/
theorem Cleared.modifyWatch {s : Supervisor σ} (h : s.Cleared) {i : Nat} {f : Watch → Watch}
    (hf : ∀ w, s.watches[i]? = some w → (f w).retired = true → (f w).roster.pending = []) :
    (s.modifyWatch i f).Cleared := by
  intro j v hv hretired
  by_cases hij : i = j
  · subst hij
    obtain ⟨w, hw, rfl⟩ : ∃ w, s.watches[i]? = some w ∧ f w = v := by
      simpa [Supervisor.modifyWatch] using hv
    exact hf w hw hretired
  · exact h j v (by simpa [Supervisor.modifyWatch, hij] using hv) hretired

omit [Strategy σ] in
/-- A watch that is begun has no jobs to be cleared. -/
theorem Cleared.addWatch {s : Supervisor σ} (h : s.Cleared) (e : Endpoint) :
    (s.addWatch e).Cleared := by
  intro i w hw hretired
  rcases Nat.lt_or_ge i s.watches.length with hlt | hge
  · rw [Supervisor.addWatch, List.getElem?_append_left hlt] at hw
    exact h i w hw hretired
  · rw [Supervisor.addWatch, List.getElem?_append_right hge] at hw
    rw [List.mem_singleton.mp (List.mem_of_getElem? hw)] at hretired
    cases hretired

/-- Reports leave no job to a retired watch. -/
theorem keptByReports_cleared : KeptByReports fun s : Supervisor σ => s.Cleared where
  enterScore s w score final h := by
    obtain ⟨book, feed, outbox, heq⟩ := enterScore_eq s w score final
    rw [heq]
    exact h
  judge _ _ _ h := h
  markReported _ i h := h.modifyWatch fun w hw hretired => h i w hw hretired
  setRequested _ _ h := h

/-- Passes leave no job to a retired watch. -/
theorem keptByPasses_cleared : KeptByPasses fun s : Supervisor σ => s.Cleared where
  setRequested _ _ h := h
  setRefreshing _ _ h := h
  beginOnce _ e _ h :=
    beginOnce_keeps (P := Cleared)
      (fun _ call ht => keptByReports_cleared.interject
        (fun _ _ hu => republishIf_keeps (fun _ _ _ hv => hv) (by exact hu) _) ht call)
      (fun _ f ht => ht.addWatch f) (fun _ _ _ ht => ht) h e
  releaseUnchosen _ _ h := h
  noteChecked _ h := h

/-- No event leaves a job to a retired watch. -/
theorem Step.cleared {s t : Supervisor σ} {event : Event} (k : Step s event t)
    (hrest : s.refreshing = false) (h : s.Cleared) : t.Cleared := by
  cases k with
  | offer hoffer =>
    have hpublish (u : Supervisor σ) (reason : Bool) (hu : u.Cleared) :
        (u.republishIf reason).Cleared := republishIf_keeps (fun _ _ _ hv => hv) hu reason
    exact keptByPasses_cleared.offer hpublish hrest hoffer h
  | report hreport => exact keptByPasses_cleared.deliver keptByReports_cleared hrest hreport h
  | @retire i _ _ hretire =>
    obtain rfl | ⟨w, -, -, hretire⟩ := retire_eq_some hretire
    · exact h
    · have hretired : (s.modifyWatch i Watch.retire).Cleared := h.modifyWatch fun _ _ _ => rfl
      exact keptByPasses_cleared.deliver keptByReports_cleared (by exact hrest) hretire hretired
  | start _ =>
    obtain ⟨feed, outbox, heq⟩ := republish_eq { s with started := true }
    rw [finishStartup, heq]
    exact h
  | enterJob hjob =>
    obtain ⟨f, rfl, -, hretired, hlive, -⟩ := eq_modifyWatch_of_enterJob hjob
    refine h.modifyWatch fun w hw hclosed => ?_
    rw [hretired w hw, hlive w hw] at hclosed
    cases hclosed
  | releaseJob i id =>
    refine h.modifyWatch fun w hw hretired => ?_
    have hnone := h i w hw hretired
    simp [Roster.release, hnone]
  | _ => exact h

/-- Throughout a life a retired watch has no job under way. -/
theorem Run.cleared {terms : Terms} {strategy : σ} {events : List Event} {s : Supervisor σ}
    (h : Run (fresh terms strategy) events s) : s.Cleared := by
  have hfresh : (fresh terms strategy).Cleared := by
    intro i w hw
    simp [fresh] at hw
  exact (h.keeps_at_rest (P := Cleared) (fun _ _ _ ht hrest k => k.cleared hrest ht) hfresh).1

/-! ## A closing supervisor without watches -/

/-- Throughout a life the published feed is closed just if the close is over. -/
theorem Run.feedClosed {terms : Terms} {strategy : σ} {events : List Event} {s : Supervisor σ}
    (h : Run (fresh terms strategy) events s) : s.published.closed = s.closed := by
  refine (h.keeps_at_rest (P := fun t => t.published.closed = t.closed) ?_ rfl).1
  intro t event u ht hrest k
  rcases k.steady_cases hrest with hsteady | ⟨-, rfl⟩ | ⟨-, -, rfl⟩ | ⟨-, -, rfl⟩
  · rw [hsteady.feedClosed, hsteady.closed]
    exact ht
  · have hsteady := Steady.republish { t with started := true }
    exact hsteady.feedClosed.trans (ht.trans hsteady.closed.symm)
  · exact ht
  · rfl

/-- Once the published feed is closed, its endpoints stay. -/
theorem Move.endpoints_of_closed {s t : Supervisor σ} (m : Move s t)
    (h : s.published.closed = true) : t.published.closed = true ∧ t.endpoints = s.endpoints := by
  cases m with
  | republish =>
    have hsame : s.republish = s := republishIf_of_closed h true
    rw [hsame]
    exact ⟨h, rfl⟩
  | finishClose => exact ⟨rfl, rfl⟩
  | _ => exact ⟨h, rfl⟩

/-- While the supervisor is closing, an endpoint that has a watch had it before. -/
theorem Run.attended_of_closing {s t : Supervisor σ} {events : List Event} (k : Run s events t)
    (hrest : s.refreshing = false) (hclosing : s.closing = true) {e : Endpoint}
    (he : t.Attended e) : s.Attended e := by
  obtain ⟨i, v, hv, horigin, hlive⟩ := he
  obtain ⟨hsame, -⟩ := k.unmoved_of_closing hrest hclosing
  have horigins : (t.watches[i]?).map Watch.origin = (s.watches[i]?).map Watch.origin := by
    rw [← List.getElem?_map, ← List.getElem?_map, hsame.origins]
  rw [hv] at horigins
  obtain ⟨w, hw, hkept⟩ := Option.map_eq_some_iff.mp horigins.symm
  refine ⟨i, w, hw, hkept.trans horigin, ?_⟩
  cases hretired : w.retired with
  | false => rfl
  | true =>
    have hstill := k.isRetired_mono hrest (i := i) (by simp [isRetired, hw, hretired])
    rw [isRetired, hv, Option.any_some, hlive] at hstill
    cases hstill

/-- What is published while the supervisor is closing, and afterwards, had a watch before. -/
theorem Run.endpoints_of_closing {terms : Terms} {strategy : σ} {events later : List Event}
    {s t : Supervisor σ} (r : Run (fresh terms strategy) events s) (hstarted : s.started = true)
    (hclosing : s.closing = true) (hopen : s.published.closed = false) (k : Run s later t) :
    (∃ all, Run (fresh terms strategy) all t) ∧ t.started = true ∧
      ∀ e ∈ t.endpoints, s.Attended e := by
  have hpublished {u : Supervisor σ} {all sofar : List Event}
      (hlife : Run (fresh terms strategy) all u) (hu : Run s sofar u) (hstill : u.started = true)
      (hfeed : u.published.closed = false) (e : Endpoint) (he : e ∈ u.endpoints) :
      s.Attended e := by
    rw [hlife.upToDate hstill hfeed] at he
    have hattended := hlife.attended_of_healthy (List.mem_filter.mp he).2
    exact hu.attended_of_closing r.refreshing hclosing hattended
  induction k with
  | nil => exact ⟨⟨events, r⟩, hstarted, hpublished r Run.nil hstarted hopen⟩
  | @snoc later event t u hlater k ih =>
    obtain ⟨⟨all, hlife⟩, hstill, hlist⟩ := ih
    have hnext := hlife.snoc k
    have hgoesOn : u.started = true := by
      rcases k.steady_cases hlife.refreshing with hsteady | ⟨-, rfl⟩ | ⟨-, -, rfl⟩ | ⟨-, -, rfl⟩
      · exact hsteady.started.trans hstill
      · exact (Steady.republish _).started
      · exact hstill
      · exact hstill
    refine ⟨⟨_, hnext⟩, hgoesOn, ?_⟩
    cases hu : u.published.closed with
    | false => exact hpublished hnext (hlater.snoc k) hgoesOn hu
    | true =>
      suffices hsame : u.endpoints = t.endpoints by
        rw [hsame]
        exact hlist
      cases ht : t.published.closed with
      | true =>
        have hfrozen := Moves.keeps
          (P := fun v => v.published.closed = true ∧ v.endpoints = t.endpoints)
          (fun v w hv m =>
            have hw := m.endpoints_of_closed hv.1
            ⟨hw.1, hw.2.trans hv.2⟩)
          (k.moves hlife.refreshing) ⟨ht, rfl⟩
        exact hfrozen.2
      | false =>
        -- only the end of the close closes the feed, and that leaves its list
        rcases k.steady_cases hlife.refreshing with hsteady | ⟨-, rfl⟩ | ⟨-, -, rfl⟩ | ⟨-, -, rfl⟩
        · cases (hsteady.feedClosed.trans ht).symm.trans hu
        · have hsteady := Steady.republish { t with started := true }
          cases (hsteady.feedClosed.trans ht).symm.trans hu
        · cases ht.symm.trans hu
        · rfl

end Supervisor

namespace Household

open Supervisor (Event)

/-! ## Ends that are outstanding -/

/-- The watches whose end was called for and has not come. -/
def outstanding (h : Household σ) : List Nat :=
  h.due ++ h.stopping

/-- A watch has ended: its check has stopped, and no job of it is left. -/
def Ended (h : Household σ) (i : Nat) : Prop :=
  i ∈ h.ended ∧ ∃ w : Watch, h.supervisor.watches[i]? = some w ∧ w.retired = true ∧
    w.roster.pending = []

/-- Every watch has ended. -/
def AllEnded (h : Household σ) : Prop :=
  ∀ i < h.supervisor.watches.length, h.Ended i

/-- A watch has ended just if it is retired, for with that its jobs are gone. -/
theorem Sound.ended_iff {terms : Terms} {strategy : σ} {h : Household σ}
    (hs : h.Sound terms strategy) (i : Nat) : h.Ended i ↔ h.supervisor.isRetired i = true := by
  obtain ⟨events, hlife⟩ := hs.lives
  constructor
  · rintro ⟨-, w, hw, hretired, -⟩
    rw [Supervisor.isRetired, hw]
    exact hretired
  · intro hretired
    have hended : i ∈ h.ended := by simpa [hs.retired i] using hretired
    obtain ⟨w, hw, hclosed⟩ := (Option.any_eq_true _ _).mp hretired
    exact ⟨hended, w, hw, hclosed, hlife.cleared i w hw hclosed⟩

omit [Strategy σ] in
/-- The ends that were called for are outstanding, or have come. -/
theorem issued_eq (h : Household σ) : h.issued = h.outstanding ++ h.ended :=
  (List.append_assoc ..).symm

omit [Strategy σ] in
/-- An end that is outstanding is that of a watch and has not come. -/
theorem Account.notMem_ended {h : Household σ} (hs : h.Account) {i : Nat}
    (hi : i ∈ h.outstanding) : i < h.supervisor.watches.length ∧ i ∉ h.ended := by
  have honce : (h.outstanding ++ h.ended).Nodup := h.issued_eq ▸ hs.nodup_issued
  have hin : i ∈ h.issued := h.issued_eq ▸ List.mem_append_left _ hi
  exact ⟨(hs.mem_issued.mp hin).1, fun hended => (List.nodup_append.mp honce).2.2 i hi i hended rfl⟩

/-- Where no watch is in force, a watch has ended exactly if its end is not outstanding. -/
theorem Sound.ended_iff_notMem {terms : Terms} {strategy : σ} {h : Household σ}
    (hs : h.Sound terms strategy) (hempty : h.supervisor.barrier = []) {i : Nat}
    (hi : i < h.supervisor.watches.length) : h.Ended i ↔ i ∉ h.outstanding := by
  rw [hs.ended_iff, hs.retired i]
  constructor
  · intro hended hout
    exact (hs.account.notMem_ended hout).2 (by simpa using hended)
  · intro hout
    have hissued := hs.account.mem_issued.mpr ⟨hi, by simp [hempty]⟩
    rw [issued_eq] at hissued
    simpa using (List.mem_append.mp hissued).resolve_left hout

/-! ## What the closing call waits for -/

/-- The ends that are outstanding were called for by passes, or a closing call waits for them. -/
def Explained (h : Household σ) : Prop :=
  ∀ i ∈ h.outstanding, i ∈ h.supervisor.released ∨ ∃ stage ∈ h.closers, i ∈ stage.taken

omit [Strategy σ] in
/-- When further ends are called for, those are outstanding that were, and these. -/
theorem mem_outstanding {h g : Household σ} {more : List Nat} (hdue : g.due = h.due ++ more)
    (hstopping : g.stopping = h.stopping) {i : Nat} :
    i ∈ g.outstanding ↔ i ∈ more ∨ i ∈ h.outstanding := by
  simp only [outstanding, hdue, hstopping, List.mem_append]
  tauto

omit [Strategy σ] in
/-- Watches that were let go on the way were let go by passes. -/
theorem Explained.follow {h g : Household σ} (he : h.Explained)
    (hsupervisor : g.supervisor = h.supervisor) (hclosers : g.closers = h.closers)
    (hends : ∀ i ∈ g.outstanding, i ∈ h.outstanding) {t : Supervisor σ} {since : List Nat}
    (hsince : t.released = h.supervisor.released ++ since) : (g.follow t).Explained := by
  have hdue : (g.follow t).due = g.due ++ since := by
    simp [Household.follow, hsupervisor, hsince]
  intro i hi
  show i ∈ t.released ∨ ∃ stage ∈ g.closers, i ∈ stage.taken
  rw [hsince, hclosers]
  rcases (mem_outstanding hdue rfl).mp hi with hnew | hold
  · exact Or.inl (List.mem_append_right _ hnew)
  · exact (he i (hends i hold)).imp_left (List.mem_append_left since)

omit [Strategy σ] in
/-- A call goes on from a stage when all it waited for there have ended. -/
theorem Explained.progress {h g : Household σ} (he : h.Explained) {k : Nat}
    {stage next : CloseStage} (hstage : h.closers[k]? = some stage)
    (hdone : ∀ i ∈ stage.taken, i ∉ h.outstanding) (hdue : g.due = h.due ++ next.taken)
    (hstopping : g.stopping = h.stopping) (hclosers : g.closers = h.closers.set k next)
    (hreleased : g.supervisor.released = h.supervisor.released) : g.Explained := by
  obtain ⟨hk, -⟩ := List.getElem?_eq_some_iff.mp hstage
  intro i hi
  rw [hreleased, hclosers]
  rcases (mem_outstanding hdue hstopping).mp hi with hnew | hold
  · exact Or.inr ⟨next, List.mem_set hk next, hnew⟩
  · rcases he i hold with hlet | ⟨other, hother, htaken⟩
    · exact Or.inl hlet
    · -- the call that waits for this end is another one, and stays where it is
      obtain ⟨j, hj⟩ := List.mem_iff_getElem?.mp hother
      have hkj : k ≠ j := by
        rintro rfl
        obtain rfl := Option.some.inj (hj.symm.trans hstage)
        exact hdone i htaken hold
      exact Or.inr ⟨other, List.mem_of_getElem? ((List.getElem?_set_ne hkj).trans hj), htaken⟩

/-- A closing call that goes on to its next stage accounts for the ends it then waits for. -/
theorem Explained.turn {terms : Terms} {strategy : σ} {h : Household σ} (he : h.Explained)
    (hs : h.Sound terms strategy) {k : Nat} {stage next : CloseStage} {t : Supervisor σ}
    (hstage : h.closers[k]? = some stage) (m : Turn h.supervisor stage next t) :
    ((h.progress k next).follow t).Explained := by
  have hreleased : t.released = h.supervisor.released := by
    cases m <;> rfl
  have hdone : ∀ i ∈ stage.taken, i ∉ h.outstanding := by
    intro i hi hout
    cases m with
    | @stopped watches hretired =>
      obtain ⟨hlt, hopen⟩ := hs.account.notMem_ended hout
      have hstopped : h.supervisor.isRetired i = true := by
        have hall := List.all_eq_true.mp hretired i hi
        rw [List.getElem?_eq_getElem hlt] at hall
        rw [Supervisor.isRetired, List.getElem?_eq_getElem hlt]
        exact hall
      rw [hs.retired i] at hstopped
      exact hopen (by simpa using hstopped)
    | _ => cases hi
  refine he.progress hstage hdone ?_ rfl rfl hreleased
  simp [Household.follow, Household.progress, hreleased]

/-- No act leaves an end outstanding that passes have not called for and no call waits for. -/
theorem Explained.step {terms : Terms} {strategy : σ} {h g : Household σ} {act : Act}
    (he : h.Explained) (hs : h.Sound terms strategy) (k : Step h act g) : g.Explained := by
  have hsame := hs.account.accounts (List.Perm.refl h.issued)
  cases k with
  | @event event t houtside k =>
    have hbegin : event ≠ .beginClose := by
      rintro rfl
      cases houtside
    obtain ⟨since, hsince, -⟩ := k.accounts hs.refreshing hbegin hsame
    exact he.follow rfl rfl (fun _ hi => hi) hsince
  | @stop i hdue =>
    intro j hj
    refine he j ?_
    rcases List.mem_append.mp hj with hj | hj
    · exact List.mem_append_left _ (List.mem_of_mem_erase hj)
    · rcases List.mem_cons.mp hj with rfl | hj
      · exact List.mem_append_left _ hdue
      · exact List.mem_append_right _ hj
  | @finish i t hstopping k =>
    obtain ⟨-, hstep⟩ := hs.account.retires hstopping k
    obtain ⟨since, hsince, -⟩ := hstep.accounts hs.refreshing nofun hsame
    refine he.follow (g := h.finish i) rfl rfl (fun j hj => ?_) hsince
    rcases List.mem_append.mp hj with hj | hj
    · exact List.mem_append_left _ hj
    · exact List.mem_append_right _ (List.mem_of_mem_erase hj)
  | close _ =>
    intro i hi
    refine (he i hi).imp_right ?_
    rintro ⟨stage, hstage, htaken⟩
    exact ⟨stage, List.mem_append_left _ hstage, htaken⟩
  | turn hstage hturn => exact he.turn hs hstage (turn_of_closeTurn hturn)
  | leave hstage =>
    refine he.progress hstage (fun i hi => ?_) rfl rfl rfl rfl
    cases hi

/-- Throughout a life every end that is outstanding was called for by passes, or a closing call
waits for it. -/
theorem Run.explained {terms : Terms} {strategy : σ} {acts : List Act} {h : Household σ}
    (r : Run (founded terms strategy) acts h) : h.Explained := by
  induction r with
  | nil =>
    intro i hi
    cases hi
  | snoc r k ih => exact ih.step (Sound.founded.run r) k

/-! ## Every close has its source closed -/

/-- A closing call has closed the source. -/
def Late (h : Household σ) : Prop :=
  h.supervisor.closed = true ∨ .left ∈ h.closers ∨ .over ∈ h.closers

/-- A closing call that has closed the source was about to do so before. -/
theorem Step.late_cases {terms : Terms} {strategy : σ} {h g : Household σ} {act : Act}
    (k : Step h act g) (hs : h.Sound terms strategy) (hlate : g.Late) :
    h.Late ∨ .leaving ∈ h.closers := by
  cases k with
  | @event event t houtside k =>
    have hsame : t.closed = h.supervisor.closed := by
      rcases k.closed_cases hs.refreshing with hsame | rfl
      · exact hsame
      · cases houtside
    exact Or.inl (hlate.imp_left hsame.symm.trans)
  | stop _ => exact Or.inl hlate
  | @finish i t hstopping k =>
    obtain ⟨-, hstep⟩ := hs.account.retires hstopping k
    have hsame : t.closed = h.supervisor.closed :=
      (hstep.closed_cases hs.refreshing).resolve_right nofun
    exact Or.inl (hlate.imp_left hsame.symm.trans)
  | close _ =>
    have hold {stage : CloseStage} (hin : stage ∈ h.closers ++ [.entering])
        (hstage : stage ≠ .entering) : stage ∈ h.closers :=
      (List.mem_append.mp hin).resolve_right fun hlast => hstage (List.mem_singleton.mp hlast)
    refine Or.inl (hlate.imp_right ?_)
    exact Or.imp (fun hin => hold hin (by decide)) (fun hin => hold hin (by decide))
  | @turn k stage next t hstage hturn =>
    have hmem := List.mem_of_getElem? hstage
    have hold {rest : CloseStage} (hin : rest ∈ h.closers.set k next) (hrest : rest ≠ next) :
        rest ∈ h.closers :=
      (List.mem_or_eq_of_mem_set hin).resolve_right hrest
    -- a turn that does not come to a late stage leaves the late stages where they were
    have hother (hleft : .left ≠ next) (hover : .over ≠ next)
        (hsame : t.closed = h.supervisor.closed) : h.Late :=
      hlate.imp hsame.symm.trans (Or.imp (fun hin => hold hin hleft) (fun hin => hold hin hover))
    refine Or.inl ?_
    cases turn_of_closeTurn hturn with
    | finish => exact Or.inr (Or.inl hmem)
    | join hclosed => exact Or.inl hclosed
    | begin _ => exact hother nofun nofun rfl
    | wait _ => exact hother nofun nofun rfl
    | stopped _ => exact hother nofun nofun rfl
  | leave hstage => exact Or.inr (List.mem_of_getElem? hstage)

/-- A state of a run in which a closing call has the source closed, and the rest of the run. -/
structure Leaving (terms : Terms) (strategy : σ) (before : List Act) (h : Household σ)
    (after : List Act) (g : Household σ) : Prop where
  reached : Run (founded terms strategy) before h
  leaving : .leaving ∈ h.closers
  goesOn : Run h after g

/-- When a closing call has closed the source, there was a moment at which it was doing that. -/
theorem Run.exists_leaving {terms : Terms} {strategy : σ} {acts : List Act} {g : Household σ}
    (r : Run (founded terms strategy) acts g) (hlate : g.Late) :
    ∃ before after h, acts = before ++ after ∧ Leaving terms strategy before h after g := by
  induction r with
  | nil =>
    rcases hlate with hclosed | hleft | hover
    · cases hclosed
    · cases hleft
    · cases hover
  | @snoc acts act h g r k ih =>
    rcases k.late_cases (Sound.founded.run r) hlate with hlate | hleaving
    · obtain ⟨before, after, i, rfl, hi⟩ := ih hlate
      refine ⟨before, after ++ [act], i, List.append_assoc .., ?_⟩
      exact ⟨hi.reached, hi.leaving, hi.goesOn.snoc k⟩
    · exact ⟨acts, [act], h, rfl, r, hleaving, Run.nil.snoc k⟩

omit [Strategy σ] in
/-- Two entries that pass a test are the same where no more than one passes it. -/
theorem eq_of_countP_le_one {α : Type} {p : α → Bool} {l : List α} (hl : l.countP p ≤ 1) {a b : α}
    (ha : a ∈ l) (hb : b ∈ l) (hpa : p a = true) (hpb : p b = true) : a = b := by
  have ha' := List.mem_filter.mpr ⟨ha, hpa⟩
  have hb' := List.mem_filter.mpr ⟨hb, hpb⟩
  rw [List.countP_eq_length_filter] at hl
  obtain ⟨c, hc⟩ : ∃ c, l.filter p = [c] :=
    List.length_eq_one_iff.mp (Nat.le_antisymm hl (List.length_pos_of_mem ha'))
  rw [hc] at ha' hb'
  rw [List.mem_singleton.mp ha', List.mem_singleton.mp hb']

/-- Only passes can have let go of a watch whose end is outstanding when the source is closed. -/
theorem Leaving.let_go {terms : Terms} {strategy : σ} {before after : List Act}
    {h g : Household σ} (hleaving : Leaving terms strategy before h after g)
    (hs : h.Sound terms strategy) (i : Nat) (hi : i ∈ h.outstanding) :
    i ∈ h.supervisor.released := by
  rcases hleaving.reached.explained i hi with hlet | ⟨stage, hstage, htaken⟩
  · exact hlet
  · -- the call that waits for an end would be a second one that closes
    obtain ⟨hclosing, hopen⟩ := hs.closing_of_closes hleaving.leaving rfl
    have hone : h.closers.countP CloseStage.closes ≤ 1 := by
      have hcloser := hs.closer
      rw [hclosing, hopen, Bool.toNat_true, Bool.toNat_false] at hcloser
      exact Nat.le_of_eq hcloser
    have hcloses : stage.closes = true := by
      cases stage with
      | stopping watches => rfl
      | _ => cases htaken
    obtain rfl := eq_of_countP_le_one hone hstage hleaving.leaving hcloses rfl
    cases htaken

/-! ## Main statement -/

/-- When a closing call is over, the source was closed on the way. By then all watches had ended but
those that passes had let go and whose ends were outstanding, and what is published since is on
these. So all had ended by then, and nothing is published when the call is over, exactly if no end
was outstanding when the source was closed. -/
theorem close_leaves_what_was_let_go (terms : Terms) (strategy : σ) {acts : List Act}
    {g : Household σ} (r : Run (founded terms strategy) acts g) (hover : .over ∈ g.closers) :
    (∃ before after h, acts = before ++ after ∧ Leaving terms strategy before h after g) ∧
    ∀ before after h, Leaving terms strategy before h after g →
      (∀ i < h.supervisor.watches.length, i ∉ h.supervisor.released → h.Ended i ∧ g.Ended i) ∧
      (∀ e ∈ g.supervisor.endpoints, ∃ i ∈ h.outstanding, h.supervisor.isOn e i = true) ∧
      ((h.AllEnded ∧ g.AllEnded ∧ g.supervisor.endpoints = []) ↔ h.outstanding = []) := by
  refine ⟨r.exists_leaving (Or.inr (Or.inr hover)), ?_⟩
  intro before after h hleaving
  have hs : h.Sound terms strategy := Sound.founded.run hleaving.reached
  have hg : g.Sound terms strategy := hs.run hleaving.goesOn
  obtain ⟨events, hlife⟩ := hs.lives
  obtain ⟨later, hlater⟩ := hleaving.goesOn.supervisor hs
  obtain ⟨hclosing, hopen⟩ := hs.closing_of_closes hleaving.leaving rfl
  obtain ⟨hsame, -⟩ := hlater.unmoved_of_closing hs.refreshing hclosing
  have hempty : h.supervisor.barrier = [] := by
    rw [Supervisor.barrier, hlife.current_of_closing hclosing]
    rfl
  have hstays (i : Nat) (hi : h.Ended i) : g.Ended i :=
    (hg.ended_iff i).mpr (hlater.isRetired_mono hs.refreshing ((hs.ended_iff i).mp hi))
  have hlist : ∀ e ∈ g.supervisor.endpoints, ∃ i ∈ h.outstanding, h.supervisor.isOn e i = true := by
    intro e he
    have hstarted := hs.started (Or.inr hclosing)
    obtain ⟨-, -, hattended⟩ :=
      hlife.endpoints_of_closing hstarted hclosing (hlife.feedClosed.trans hopen) hlater
    -- an endpoint that is still published has a watch that had not ended, so it was outstanding
    obtain ⟨i, w, hw, horigin, hlive⟩ := hattended e he
    obtain ⟨hi, -⟩ := List.getElem?_eq_some_iff.mp hw
    refine ⟨i, ?_, by simp [Supervisor.isOn, hw, horigin]⟩
    by_contra hout
    have hended := (hs.ended_iff i).mp ((hs.ended_iff_notMem hempty hi).mpr hout)
    rw [Supervisor.isRetired, hw, Option.any_some, hlive] at hended
    cases hended
  refine ⟨?_, hlist, ?_, ?_⟩
  · intro i hi hkept
    have hended : h.Ended i :=
      (hs.ended_iff_notMem hempty hi).mpr fun hout => hkept (hleaving.let_go hs i hout)
    exact ⟨hended, hstays i hended⟩
  · rintro ⟨hall, -, -⟩
    refine List.eq_nil_iff_forall_not_mem.mpr fun i hi => ?_
    have hlt := (hs.account.notMem_ended hi).1
    exact (hs.ended_iff_notMem hempty hlt).mp (hall i hlt) hi
  · intro hnone
    have hall : h.AllEnded := fun i hi =>
      (hs.ended_iff_notMem hempty hi).mpr (hnone ▸ List.not_mem_nil)
    refine ⟨hall, fun i hi => hstays i (hall i (hsame.length ▸ hi)), ?_⟩
    refine List.eq_nil_iff_forall_not_mem.mpr fun e he => ?_
    obtain ⟨i, hi, -⟩ := hlist e he
    rw [hnone] at hi
    cases hi

/-- A watch that was let go for a failure has ended before the supervisor is closed. -/
theorem close_after_the_last_end :
    let a : Endpoint := { host := "a" }
    let b : Endpoint := { host := "b" }
    let policy := Policy.ofQuota (some (.count 1))
    let before : List Act :=
      [.event (.offer [a, b]), .event (.report 0 1.0), .event .start, .event (.report 0 0.0),
        .stop 0, .event (.report 1 1.0), .finish 0, .close, .turn 0, .stop 1, .finish 1, .turn 0]
    let after : List Act := [.leave 0, .turn 0]
    ∃ h g, Leaving {} policy before h after g ∧ .over ∈ g.closers ∧
      h.supervisor.endpoints = [] ∧ g.supervisor.watches.length = 2 ∧ h.AllEnded ∧ g.AllEnded ∧
      g.supervisor.endpoints = [] := by
  intro a b policy before after
  obtain ⟨h, g, r, k, hleaving, hover, hnone, hwatches, hempty⟩ :
      ∃ h g, Run (founded {} policy) before h ∧ Run h after g ∧ .leaving ∈ h.closers ∧
        .over ∈ g.closers ∧ h.outstanding = [] ∧ g.supervisor.watches.length = 2 ∧
        h.supervisor.endpoints = [] :=
    exists_runs_of_replay (n := 9) (by decide)
  have hpart : Leaving {} policy before h after g := ⟨r, hleaving, k⟩
  have hclean := (close_leaves_what_was_let_go {} policy (r.append k) hover).2 before after h hpart
  obtain ⟨hall, hstill, hlist⟩ := hclean.2.2.mpr hnone
  exact ⟨h, g, hpart, hover, hempty, hwatches, hall, hstill, hlist⟩

/-- A watch that was let go for a failure reports its endpoint healthy once more, and then the
supervisor is closed. The close is over before that watch has ended, and its endpoint stays
published. -/
theorem close_outruns_an_end :
    let a : Endpoint := { host := "a" }
    let b : Endpoint := { host := "b" }
    let policy := Policy.ofQuota (some (.count 1))
    let before : List Act :=
      [.event (.offer [a, b]), .event (.report 0 1.0), .event .start, .event (.report 0 0.0),
        .stop 0, .event (.report 0 1.0), .close, .turn 0, .stop 1, .finish 1, .turn 0]
    let after : List Act := [.leave 0, .turn 0]
    ∃ h g, Leaving {} policy before h after g ∧ .over ∈ g.closers ∧
      h.outstanding = [0] ∧ ¬ h.AllEnded ∧ ¬ g.AllEnded ∧ g.supervisor.endpoints = [a] := by
  intro a b policy before after
  obtain ⟨h, g, r, k, hleaving, hover, hout, hlist, hended, hlater, hwatches, hmore⟩ :
      ∃ h g, Run (founded {} policy) before h ∧ Run h after g ∧ .leaving ∈ h.closers ∧
        .over ∈ g.closers ∧ h.outstanding = [0] ∧ g.supervisor.endpoints = [a] ∧
        h.ended = [1] ∧ g.ended = [1] ∧ 0 < h.supervisor.watches.length ∧
        0 < g.supervisor.watches.length :=
    exists_runs_of_replay (n := 9) (by decide)
  have hopen {i : Household Policy} (hi : i.ended = [1]) (hsome : 0 < i.supervisor.watches.length) :
      ¬ i.AllEnded := by
    intro hall
    have hin := (hall 0 hsome).1
    rw [hi] at hin
    exact absurd hin (by decide)
  exact ⟨h, g, ⟨r, hleaving, k⟩, hover, hout, hopen hended hwatches, hopen hlater hmore, hlist⟩

end Household

end HealthWatch
