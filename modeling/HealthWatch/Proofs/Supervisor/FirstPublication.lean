import HealthWatch.Proofs.Supervisor.Calls
import HealthWatch.Proofs.Supervisor.Hearing
import HealthWatch.Proofs.Supervisor.Replay
import HealthWatch.Strategy.Policy

/-!
# What is published before the start is over

Until the start is over new candidates are not published, but a report that turns an endpoint
healthy or unhealthy is. So a listener hears nothing before the start is over, and then hears what
is healthy, exactly if no watch that lives has reported a good score (`nothing_is_heard_early_iff`).
Nothing is healthy in that case, and what it hears is the empty list.
-/

set_option autoImplicit false

namespace HealthWatch

namespace Supervisor

variable {σ : Type}

/-- The start is not over, the listener hears of every publication, and as long as it has heard of
none, none was made and nothing is healthy. -/
structure Awaiting (listener : Listener) (s : Supervisor σ) : Prop where
  there : s.abandoned = false
  early : s.started = false
  opened : s.published.closed = false
  listens : listener ∈ s.published.listeners
  silent : s.heardBy listener = [] →
    (∀ e, s.health.isHealthy e = false) ∧ s.published.announced = false

/-- A listener to a feed on which nothing was published hears of the next publication, whatever it
is. -/
theorem Awaiting.heardBy_republish {listener : Listener} {s : Supervisor σ}
    (hopen : s.published.closed = false) (hlistens : listener ∈ s.published.listeners)
    (hnone : s.published.announced = false) :
    s.republish.heardBy listener = s.heardBy listener ++ [s.healthyCandidates] :=
  Supervisor.heardBy_republish hlistens (by simp [Feed.accepts, hopen, hnone])

/-- A publication leaves the listener waiting; if it has heard nothing so far, it hears this one. -/
theorem Awaiting.republish {listener : Listener} {s : Supervisor σ} (hthere : s.abandoned = false)
    (hearly : s.started = false) (hopen : s.published.closed = false)
    (hlistens : listener ∈ s.published.listeners)
    (hsilent : s.heardBy listener = [] → s.published.announced = false) :
    Awaiting listener s.republish ∧ s.republish.heardBy listener ≠ [] := by
  have hsteady := Steady.republish s
  obtain ⟨lists, hrelays⟩ := relays_republish (s := s) (Or.inr hlistens)
  have hheard : s.republish.heardBy listener ≠ [] := by
    cases hbefore : s.heardBy listener with
    | nil =>
      rw [Awaiting.heardBy_republish hopen hlistens (hsilent hbefore)]
      simp
    | cons list rest =>
      rw [hrelays.heard, hbefore]
      simp
  have hopen' := hsteady.feedClosed.trans hopen
  refine ⟨⟨hsteady.abandoned.trans hthere, hsteady.started.trans hearly, hopen',
    hrelays.listens hopen', fun hnothing => absurd hnothing hheard⟩, hheard⟩

/-- A change of the book that is published if it turned something is heard if it is the first. -/
theorem Awaiting.change {listener : Listener} {s : Supervisor σ} (h : Awaiting listener s)
    (book : HealthBook) {turned : Bool} {B : Prop}
    (hturned : (∀ e, s.health.isHealthy e = false) → (turned = true ↔ B))
    (hkept : turned = false → book.isHealthy = s.health.isHealthy) :
    let t := ({ s with health := book } : Supervisor σ).republishIf turned
    Awaiting listener t ∧ (t.heardBy listener ≠ [] ↔ s.heardBy listener ≠ [] ∨ B) := by
  intro t
  cases turned with
  | false =>
    refine ⟨⟨h.there, h.early, h.opened, h.listens, fun hnothing => ?_⟩, ?_⟩
    · obtain ⟨hnobody, hnone⟩ := h.silent hnothing
      exact ⟨fun e => (congrFun (hkept rfl) e).trans (hnobody e), hnone⟩
    · show s.heardBy listener ≠ [] ↔ _
      refine ⟨Or.inl, ?_⟩
      rintro (hheard | hB)
      · exact hheard
      · intro hnothing
        cases (hturned (h.silent hnothing).1).mpr hB
  | true =>
    obtain ⟨hawaiting, hheard⟩ := Awaiting.republish (s := { s with health := book }) h.there
      h.early h.opened h.listens fun hnothing => (h.silent hnothing).2
    refine ⟨hawaiting, fun _ => ?_, fun _ => hheard⟩
    by_cases hnothing : s.heardBy listener = []
    · exact Or.inr ((hturned (h.silent hnothing).1).mp rfl)
    · exact Or.inl hnothing

/-- A good score of a watch that lives. -/
def Good (w : Watch) (score : Float) : Prop :=
  w.retired = false ∧ HealthBook.positive score = true

/-- Entering a score is heard, when nothing was heard before, just if it is a good score of a watch
that lives. -/
theorem Awaiting.enterScore {listener : Listener} (s : Supervisor σ) (w : Watch) (score : Float)
    (final : Bool) (hfinal : final = true → w.retired = true ∧ score = 0.0) :
    Adds (Awaiting listener) (fun s => s.heardBy listener ≠ []) (Good w score) s
      (s.enterScore w score final) := by
  intro h
  unfold Supervisor.enterScore
  split
  · rename_i hlate
    have hnot : ¬ Good w score := by
      intro hgood
      simp [hgood.1] at hlate
    exact ⟨h, by simp [hnot]⟩
  · rename_i hentered
    split
    · rename_i hgone
      obtain ⟨hretired, -⟩ := hfinal ((Bool.and_eq_true _ _).mp hgone).1
      refine h.change _ (fun hnobody => ?_) HealthBook.isHealthy_forget_of_not_healthy
      simp [hnobody, Good, hretired]
    · refine h.change _ (fun hnobody => ?_) HealthBook.isHealthy_record_of_not_turns
      cases hretired : w.retired with
      | false => simp [HealthBook.turns_eq, hnobody, Good, hretired]
      | true =>
        have hend : final = true := by simpa [hretired] using hentered
        have hbad : HealthBook.positive score = false := by
          rw [(hfinal hend).2]
          decide
        simp [HealthBook.turns_eq, hnobody, Good, hbad]

/-- Nothing is heard where the book, the feed and what was heard so far are left alone. -/
theorem Awaiting.untouched {listener : Listener} {s t : Supervisor σ}
    (hthere : t.abandoned = s.abandoned) (hearly : t.started = s.started)
    (hfeed : t.published = s.published) (hheard : t.heardBy listener = s.heardBy listener)
    (hbook : t.health = s.health) :
    Adds (Awaiting listener) (fun s => s.heardBy listener ≠ []) False s t := by
  refine Adds.same (fun h => ?_) (by rw [hheard])
  refine ⟨hthere.trans h.there, hearly.trans h.early, ?_, ?_, ?_⟩
  · rw [hfeed]
    exact h.opened
  · rw [hfeed]
    exact h.listens
  · rw [hheard, hbook, hfeed]
    exact h.silent

variable [Strategy σ]

/-- Before the start is over something is heard through good scores and through nothing else. -/
theorem broughtByReports_heard (listener : Listener) :
    BroughtByReports (Awaiting (σ := σ) listener) (fun s => s.heardBy listener ≠ []) Good
      (fun _ => False) where
  there _ h := h.there
  enterScore := Awaiting.enterScore
  markReported _ _ _ _ := Awaiting.untouched rfl rfl rfl rfl rfl
  retireWatch _ _ := Awaiting.untouched rfl rfl rfl rfl rfl
  judge _ _ _ := Awaiting.untouched rfl rfl rfl rfl rfl
  adopt s candidates := by
    refine Adds.same (fun h => ⟨h.there, h.early, h.opened, h.listens, fun hnothing => ?_⟩) Iff.rfl
    obtain ⟨hnobody, hnone⟩ := h.silent hnothing
    refine ⟨fun e => ?_, hnone⟩
    show (s.health.keepOnly candidates).isHealthy e = false
    rw [HealthBook.isHealthy_keepOnly, hnobody e, Bool.and_false]
  -- new candidates are not published, since the start is not over
  publish s h := by
    rw [republishIf, h.early]
    exact ⟨h, by simp⟩
  setRequested _ _ := Awaiting.untouched rfl rfl rfl rfl rfl
  setRefreshing _ _ := Awaiting.untouched rfl rfl rfl rfl rfl
  addWatch _ _ := Awaiting.untouched rfl rfl rfl rfl rfl
  enlist s e i := Awaiting.untouched rfl rfl rfl (heardBy_enlist s e i listener) rfl
  releaseUnchosen s chosen :=
    Awaiting.untouched rfl rfl rfl (heardBy_releaseUnchosen s chosen listener) rfl
  noteChecked _ := Awaiting.untouched rfl rfl rfl rfl rfl

/-- An event before the end of the start is heard just if one of its calls brings a good score. -/
theorem Step.adds_heard {s t : Supervisor σ} {event : Event} (k : Step s event t)
    (hrest : s.refreshing = false) (hearly : event ≠ .start) (hopen : event ≠ .finishClose)
    (listener : Listener) :
    Adds (Awaiting listener) (fun s => s.heardBy listener ≠ [])
      (BringsAt Good (fun _ => False) s event) s t := by
  refine (broughtByReports_heard listener).step k hrest fun hplain => ?_
  cases k with
  | listen other =>
    refine Adds.same (fun h => ⟨h.there, h.early, h.opened, ?_, h.silent⟩) Iff.rfl
    exact List.mem_append_left _ h.listens
  | beginClose _ => exact Awaiting.untouched rfl rfl rfl rfl rfl
  | enterJob hjob =>
    obtain ⟨f, rfl, -⟩ := eq_modifyWatch_of_enterJob hjob
    exact Awaiting.untouched rfl rfl rfl rfl rfl
  | releaseJob i id => exact Awaiting.untouched rfl rfl rfl rfl rfl
  | start => exact absurd rfl hearly
  | finishClose => exact absurd rfl hopen
  | offer => cases hplain
  | report => cases hplain
  | retire => cases hplain

/-- What brings it about that something is heard is a good report, at the event itself or by a check
that is begun at it: the end of a watch counts as a failure. -/
theorem bringsAt_good_iff {s : Supervisor σ} {event : Event} :
    BringsAt Good (fun _ => False) s event ↔ ∃ u i score w, Asks s event u (.report i score) ∧
      u.watches[i]? = some w ∧ w.retired = false ∧ HealthBook.positive score = true := by
  constructor
  · rintro (⟨i, w, rfl, -, -, hgood | hnever⟩ | ⟨u, call, hasks, hbrings⟩)
    · cases hgood.1
    · exact hnever.elim
    · cases call with
      | offer candidates => exact hbrings.elim
      | report i score =>
        obtain ⟨w, hw, ⟨hlive, hpositive⟩ | hnever⟩ := hbrings
        · exact ⟨u, i, score, w, hasks, hw, hlive, hpositive⟩
        · exact hnever.elim
  · rintro ⟨u, i, score, w, hasks, hw, hlive, hpositive⟩
    exact Or.inr ⟨u, _, hasks, w, hw, Or.inl ⟨hlive, hpositive⟩⟩

/-- A run of a supervisor whose start is not over, seen by a listener that is there from the
beginning: it has heard something exactly if a good report was made. -/
theorem Run.heard_iff {terms : Terms} {strategy : σ} {listener : Listener} {events : List Event}
    {s : Supervisor σ} (h : Run ((fresh terms strategy).subscribe listener) events s)
    (hearly : Event.start ∉ events) (hopen : Event.finishClose ∉ events) :
    Awaiting listener s ∧ (s.heardBy listener ≠ [] ↔ ∃ u i score w,
      Asked ((fresh terms strategy).subscribe listener) events s u (.report i score) ∧
        u.watches[i]? = some w ∧ w.retired = false ∧ HealthBook.positive score = true) := by
  have hfresh : Awaiting listener ((fresh terms strategy).subscribe listener) := by
    refine ⟨rfl, rfl, rfl, ?_, fun _ => ⟨fun _ => rfl, rfl⟩⟩
    simp [Supervisor.subscribe, Feed.subscribe]
  have hstep (before : Supervisor σ) (event : Event) (after : Supervisor σ) (hin : event ∈ events)
      (hrest : before.refreshing = false) (k : Step before event after) :
      Adds (Awaiting listener) (fun s => s.heardBy listener ≠ [])
        (BringsAt Good (fun _ => False) before event) before after :=
    k.adds_heard hrest (fun heq => hearly (heq ▸ hin)) (fun heq => hopen (heq ▸ hin)) listener
  obtain ⟨hawaiting, hheard⟩ := h.adds hstep (List.Subset.refl events) rfl hfresh
  refine ⟨hawaiting, hheard.trans ⟨?_, ?_⟩⟩
  · rintro (hbefore | ⟨earlier, event, later, before, after, heq, hrun, hevent, hrest, hbrings⟩)
    · exact absurd rfl hbefore
    · obtain ⟨u, i, score, w, hasks, hgood⟩ := bringsAt_good_iff.mp hbrings
      have hasked : Asked ((fresh terms strategy).subscribe listener) events s u
          (.report i score) :=
        ⟨earlier, event, later, before, after, heq, hrun, hevent, hrest, hasks⟩
      exact ⟨u, i, score, w, hasked, hgood⟩
  · rintro ⟨u, i, score, w, hasked, hgood⟩
    exact Or.inr (hasked.imp fun _ _ hasks => bringsAt_good_iff.mpr ⟨u, i, score, w, hasks, hgood⟩)

omit [Strategy σ] in
/-- A listener that has heard nothing so far hears what is healthy when the start is over, which is
nothing. -/
theorem Awaiting.heardBy_finishStartup {listener : Listener} {s : Supervisor σ}
    (h : Awaiting listener s) (hnothing : s.heardBy listener = []) :
    s.finishStartup.heardBy listener = [s.healthyCandidates] ∧ s.healthyCandidates = [] := by
  obtain ⟨hnobody, hnone⟩ := h.silent hnothing
  have hpublished := Awaiting.heardBy_republish (s := { s with started := true }) h.opened h.listens
    hnone
  have hbefore : ({ s with started := true } : Supervisor σ).heardBy listener = [] := hnothing
  rw [hbefore] at hpublished
  exact ⟨hpublished, by simp [healthyCandidates, HealthBook.healthyOf, hnobody]⟩

/-! ## Main statement -/

/-- A listener that is there from the beginning, and a supervisor with any strategy and any checks,
to which anything happens in any order before its start is over. What the start is meant to do, that
the listener hears nothing before it is over and then, as its first list, the candidates that are
healthy at that moment, it does if and only if no watch that has not come to its end reported a good
score meanwhile, be it while it was being begun or later. In that case the first list is empty. -/
theorem nothing_is_heard_early_iff (terms : Terms) (strategy : σ) (listener : Listener)
    {events : List Event} {s : Supervisor σ}
    (h : Run ((fresh terms strategy).subscribe listener) events s) (hearly : Event.start ∉ events)
    (hopen : Event.finishClose ∉ events) :
    ((s.heardBy listener = [] ∧
        s.finishStartup.heardBy listener = [s.candidates.filter s.health.isHealthy]) ↔
      ¬ ∃ u i score w,
        Asked ((fresh terms strategy).subscribe listener) events s u (.report i score) ∧
          u.watches[i]? = some w ∧ w.retired = false ∧ HealthBook.positive score = true) ∧
    (s.heardBy listener = [] → s.finishStartup.heardBy listener = [[]]) := by
  obtain ⟨hawaiting, hheard⟩ := h.heard_iff hearly hopen
  refine ⟨?_, fun hnothing => ?_⟩
  -- whoever has heard nothing yet is brought the first list by the start
  · rw [← hheard, Classical.not_not]
    exact ⟨And.left, fun hnothing => ⟨hnothing, (hawaiting.heardBy_finishStartup hnothing).1⟩⟩
  · obtain ⟨hfirst, hempty⟩ := hawaiting.heardBy_finishStartup hnothing
    rw [hfirst, hempty]

/-- Two failures keep the listener waiting, and the first list that it hears is empty. -/
theorem two_failures_are_heard_as_an_empty_list :
    let a : Endpoint := { host := "a" }
    let b : Endpoint := { host := "b" }
    let first : Supervisor Policy := (fresh {} (Policy.ofQuota none)).subscribe 0
    let events : List Event := [.offer [a, b], .report 0 0.0, .report 1 0.0]
    ∃ s, Run first events s ∧ s.allReported [0, 1] = true ∧
      (s.heardBy 0 = [] ∧
        s.finishStartup.heardBy 0 = [s.candidates.filter s.health.isHealthy]) ∧
      (¬ ∃ u i score w, Asked first events s u (.report i score) ∧ u.watches[i]? = some w ∧
        w.retired = false ∧ HealthBook.positive score = true) ∧
      s.finishStartup.heardBy 0 = [[]] := by
  intro a b first events
  obtain ⟨s, hrun, hreported, hnothing, hafter⟩ : ∃ s, Run first events s ∧
      s.allReported [0, 1] = true ∧ s.heardBy 0 = [] ∧
        s.finishStartup.heardBy 0 = [s.candidates.filter s.health.isHealthy] :=
    exists_run_of_replay (n := 2) rfl (by decide)
  obtain ⟨hiff, hempty⟩ := nothing_is_heard_early_iff {} (Policy.ofQuota none) 0 hrun
    (by simp [events]) (by simp [events])
  exact ⟨s, hrun, hreported, ⟨hnothing, hafter⟩, hiff.mp ⟨hnothing, hafter⟩, hempty hnothing⟩

/-- The start waits for two watches. The listener hears of the one that reports while it is being
begun, although the other has yet to report, and then of the other; so it hears nothing new when the
start is over. -/
theorem listeners_hear_before_the_start :
    let a : Endpoint := { host := "a" }
    let b : Endpoint := { host := "b" }
    let terms : Terms :=
      { greeting := fun before e => if e = a then [.report before.length 1.0] else [] }
    let first : Supervisor Policy := (fresh terms (Policy.ofQuota none)).subscribe 0
    (∃ s, Run first [.offer [a, b]] s ∧ s.barrier = [0, 1] ∧ s.allReported [0, 1] = false ∧
      s.heardBy 0 = [[a]]) ∧
    ∃ s, Run first [.offer [a, b], .report 1 1.0] s ∧ s.allReported [0, 1] = true ∧
      s.heardBy 0 = [[a], [a, b]] ∧ s.finishStartup.heardBy 0 = s.heardBy 0 := by
  intro a b terms first
  constructor
  · exact exists_run_of_replay (n := 2) rfl (by decide)
  · exact exists_run_of_replay (n := 2) rfl (by decide)

end Supervisor

end HealthWatch
