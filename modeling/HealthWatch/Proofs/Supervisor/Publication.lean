import HealthWatch.Proofs.Supervisor.Replay
import HealthWatch.Proofs.Supervisor.Telling
import HealthWatch.Strategy.Policy

/-!
# Publishing

What is published follows the candidates and the book. Not every change publishes: a score does
when it turns its endpoint, new candidates do once their passes are over, and the start does. The
invariant is `UpToDate`. It may fail only while new candidates are being taken, between adopting
them and the publication that ends it, and every publication restores it.
-/

set_option autoImplicit false

namespace HealthWatch.Supervisor

variable {σ : Type}

/-- What is published is what the book makes of the candidates, from the start to the close. -/
def UpToDate (s : Supervisor σ) : Prop :=
  s.started = true → s.published.closed = false → s.endpoints = s.healthyCandidates

/-! ## Publications bring it about -/

/-- A publication leaves the healthy candidates published, unless the feed is closed. -/
theorem endpoints_republish {s : Supervisor σ} (h : s.published.closed = false) :
    s.republish.endpoints = s.healthyCandidates := by
  unfold republish endpoints
  dsimp only
  split
  · rename_i haccepted
    simp [Feed.announce, haccepted]
  · rename_i hrefused
    -- an open feed refuses only what it holds already
    simp only [Feed.accepts, h, Bool.not_false, Bool.true_and, Bool.not_eq_true,
      Bool.not_eq_false', Bool.and_eq_true, beq_iff_eq] at hrefused
    exact hrefused.2

/-- On a closed feed nothing is published. -/
theorem republishIf_of_closed {s : Supervisor σ} (h : s.published.closed = true) (reason : Bool) :
    s.republishIf reason = s := by
  have hrefused : s.published.accepts s.healthyCandidates = false := by simp [Feed.accepts, h]
  cases reason with
  | false => rfl
  | true => simp [republishIf, republish, hrefused]

/-- A publication brings what is published up to date. -/
theorem upToDate_republish (s : Supervisor σ) : s.republish.UpToDate := by
  intro _ hopen
  rw [healthyCandidates_republish]
  rw [(Steady.republish s).feedClosed] at hopen
  exact endpoints_republish hopen

/-- Publishing whenever the start is over brings it about. -/
theorem upToDate_republishIf_started (s : Supervisor σ) : (s.republishIf s.started).UpToDate := by
  cases hstarted : s.started with
  | true => exact upToDate_republish s
  | false =>
    intro h
    rw [republishIf, if_neg (by simp), hstarted] at h
    cases h

/-- A change of the book that turns no endpoint leaves it as it was, and any other publishes. -/
theorem UpToDate.change {s t : Supervisor σ} (h : s.UpToDate) (hstarted : t.started = s.started)
    (hfeed : t.published = s.published) (hcandidates : t.candidates = s.candidates)
    {turned : Bool} (hturned : turned = false → t.health.isHealthy = s.health.isHealthy) :
    (t.republishIf turned).UpToDate := by
  cases turned with
  | true => exact upToDate_republish t
  | false =>
    intro hs ho
    have hlist : t.healthyCandidates = s.healthyCandidates := by
      unfold healthyCandidates HealthBook.healthyOf
      rw [hturned rfl, hcandidates]
    have hold := h (hstarted ▸ hs) (hfeed ▸ ho)
    calc t.endpoints = s.endpoints := congrArg Feed.current hfeed
      _ = s.healthyCandidates := hold
      _ = t.healthyCandidates := hlist.symm

/-- A score that is entered leaves what is published up to date: it publishes when it turns its
endpoint. -/
theorem UpToDate.enterScore {s : Supervisor σ} (h : s.UpToDate) (w : Watch) (score : Float)
    (final : Bool) : (s.enterScore w score final).UpToDate := by
  unfold Supervisor.enterScore
  split
  · exact h
  · split
    · exact h.change (t := s.forget w.origin) rfl rfl rfl
        HealthBook.isHealthy_forget_of_not_healthy
    · exact h.change (t := s.record w.origin score) rfl rfl rfl
        HealthBook.isHealthy_record_of_not_turns

/-! ## Every event keeps it -/

variable [Strategy σ]

/-- New candidates within a pass are published at once, from the start on. -/
theorem upToDate_takeIn (s : Supervisor σ) (candidates : List Endpoint) :
    (s.takeIn candidates).UpToDate :=
  upToDate_republishIf_started ((s.adopt candidates).setRequested true)

/-- Scores leave what is published up to date. -/
theorem keptByReports_upToDate : KeptByReports fun s : Supervisor σ => s.UpToDate where
  enterScore _ w score final h := h.enterScore w score final
  judge _ _ _ h := h
  markReported _ _ h := h
  setRequested _ _ h := h

/-- Passes leave what is published up to date. -/
theorem keptByPasses_upToDate : KeptByPasses fun s : Supervisor σ => s.UpToDate where
  setRequested _ _ h := h
  setRefreshing _ _ h := h
  beginOnce _ e _ h :=
    beginOnce_keeps (P := UpToDate)
      (fun _ call ht =>
        keptByReports_upToDate.interject (fun u cs _ => upToDate_takeIn u cs) ht call)
      (fun _ _ ht => ht) (fun _ _ _ ht => ht) h e
  releaseUnchosen _ _ h := h
  noteChecked _ h := h

/-- Every event leaves the healthy candidates published. -/
theorem UpToDate.step {s t : Supervisor σ} {event : Event} (hs : s.UpToDate)
    (hrest : s.refreshing = false) (k : Step s event t) : t.UpToDate := by
  cases k with
  | listen listener => exact hs
  | offer h =>
    obtain ⟨u, -, rfl⟩ := offer_eq_some_iff.mp h
    exact upToDate_republishIf_started u
  | report h => exact keptByPasses_upToDate.deliver keptByReports_upToDate hrest h hs
  | retire _ h =>
    obtain rfl | ⟨w, -, -, h⟩ := retire_eq_some h
    · exact hs
    · refine keptByPasses_upToDate.deliver keptByReports_upToDate ?_ h ?_
      · exact hrest
      · exact hs
  | start _ => exact upToDate_republish _
  | beginClose _ => exact hs
  | finishClose _ =>
    intro _ hopen
    simp [finishClose, Feed.close] at hopen
  | enterJob h =>
    obtain ⟨f, rfl, -⟩ := eq_modifyWatch_of_enterJob h
    exact hs
  | releaseJob i id => exact hs

/-- Between two events what is published is up to date. -/
theorem Run.upToDate {terms : Terms} {strategy : σ} {events : List Event} {s : Supervisor σ}
    (h : Run (fresh terms strategy) events s) : s.UpToDate := by
  have hfresh : (fresh terms strategy).UpToDate := by
    intro hstarted
    cases hstarted
  exact (h.keeps_at_rest (P := UpToDate) (fun _ _ _ ht hrest k => ht.step hrest k) hfresh).1

/-! ## Main statement -/

/-- Between two events, once the start is over and as long as the feed is open, the published
endpoints are the healthy ones of the candidates, in their order and as often, and the snapshot
counts them. And every list that listeners were ever told, in the middle of a call too, was that of
the healthy candidates at the moment of telling. -/
theorem published_are_the_healthy_candidates (terms : Terms) (strategy : σ) {events : List Event}
    {s : Supervisor σ} (h : Run (fresh terms strategy) events s) :
    (s.started = true → s.published.closed = false →
      s.endpoints = s.candidates.filter s.health.isHealthy ∧
        s.snapshot.healthy = s.endpoints.length) ∧
    ∀ before list audience after,
      s.outbox = before ++ Effect.published list audience :: after →
        ∃ u, Moment (fresh terms strategy) events s u ∧
          u.outbox = before ++ [Effect.published list audience] ∧
          list = u.candidates.filter u.health.isHealthy ∧ ∀ e ∈ list, e ∈ u.candidates := by
  constructor
  · intro hstarted hopen
    have hlist : s.endpoints = s.candidates.filter s.health.isHealthy := h.upToDate hstarted hopen
    refine ⟨hlist, ?_⟩
    rw [hlist]
    exact HealthBook.healthy_snapshot s.health s.candidates
  · intro before list audience after hs
    obtain ⟨effects, heffects, hlists⟩ := h.tells
    have heq : effects = before ++ Effect.published list audience :: after := by
      rw [← hs, heffects]
      rfl
    obtain ⟨u, hmoment, hu, hlist⟩ := hlists before list audience after heq
    have hfilter : list = u.candidates.filter u.health.isHealthy := hlist
    refine ⟨u, hmoment, hu, hfilter, ?_⟩
    intro e he
    rw [hfilter] at he
    exact (List.mem_filter.mp he).1

/-- Two of three endpoints are checked, and each reports while its watch is being begun, the second
a failure; so the second gives way to the third within the pass. Then the first fails. -/
theorem published_through_two_failures :
    let a : Endpoint := { host := "a" }
    let b : Endpoint := { host := "b" }
    let c : Endpoint := { host := "c" }
    let terms : Terms :=
      { greeting := fun before e => [.report before.length (if e = b then 0.0 else 1.0)] }
    let events : List Event := [.listen 0, .offer [a, b, c, a], .start, .report 0 0.0, .retire 1]
    ∃ s, Run (fresh terms (Policy.ofQuota (some (.count 2)))) events s ∧
      s.endpoints = [c] ∧ s.endpoints = s.candidates.filter s.health.isHealthy ∧
      ∃ u, Moment (fresh terms (Policy.ofQuota (some (.count 2)))) events s u ∧
        [a, c, a] = u.candidates.filter u.health.isHealthy := by
  intro a b c terms events
  obtain ⟨s, h, hstarted, hopen, hlist, hheard⟩ :
      ∃ s, Run (fresh terms (Policy.ofQuota (some (.count 2)))) events s ∧ s.started = true ∧
        s.published.closed = false ∧ s.endpoints = [c] ∧
        s.outbox = s.outbox.take 4 ++ .published [a, c, a] [0] :: s.outbox.drop 5 :=
    exists_run_of_replay (n := 9) rfl (by decide)
  obtain ⟨hnow, hmoments⟩ := published_are_the_healthy_candidates terms _ h
  obtain ⟨u, hu, -, hthen, -⟩ := hmoments _ _ _ _ hheard
  exact ⟨s, h, hlist, (hnow hstarted hopen).1, u, hu, hthen⟩

end HealthWatch.Supervisor
