import HealthWatch.Proofs.Supervisor.Reconciliation

/-!
# Two watches on one endpoint

A watch that was let go reports until its check has stopped, and by then its endpoint may have a new
watch in force. Scores go by endpoint: the book and the strategy are not told which watch a score
comes from. So a score of the old watch counts like one of the new watch, and the old watch's end
counts like a score of zero of the new one, as the endpoint is a candidate then.
-/

set_option autoImplicit false

namespace HealthWatch.Supervisor

variable {σ : Type} [Strategy σ]

/-- What a call comes to, with a watch marked as having reported. -/
def marked (outcome : Option (Supervisor σ)) (i : Nat) : Option (Supervisor σ) :=
  outcome.map fun t => t.modifyWatch i Watch.markReported

/-- An endpoint has a watch in force while an older one, which was let go, has not ended yet. -/
structure Overlap (s : Supervisor σ) (e : Endpoint) (old new : Nat) : Prop where
  inForce : (e, new) ∈ s.current
  letGo : old ∉ s.barrier
  lives : ∃ w : Watch, s.watches[old]? = some w ∧ w.origin = e ∧ w.retired = false

omit [Strategy σ] in
/-- Whether two watches overlap can be read off the state. -/
theorem overlap_iff {s : Supervisor σ} {e : Endpoint} {old new : Nat} :
    s.Overlap e old new ↔ (e, new) ∈ s.current ∧ old ∉ s.barrier ∧
      (s.watches[old]?).any (fun w => w.origin == e && !w.retired) = true := by
  rw [Option.any_eq_true]
  constructor
  · rintro ⟨hnew, hold, w, hw, horigin, hlive⟩
    exact ⟨hnew, hold, w, hw, by simp [horigin, hlive]⟩
  · rintro ⟨hnew, hold, w, hw, hlives⟩
    exact ⟨hnew, hold, w, hw, by simpa using hlives⟩

instance (s : Supervisor σ) (e : Endpoint) (old new : Nat) : Decidable (s.Overlap e old new) :=
  decidable_of_iff _ overlap_iff.symm

omit [Strategy σ] in
/-- An older watch and the one in force are not the same. -/
theorem Overlap.ne {s : Supervisor σ} {e : Endpoint} {old new : Nat} (h : s.Overlap e old new) :
    old ≠ new :=
  fun heq => h.letGo (mem_barrier.mpr ⟨e, heq ▸ h.inForce⟩)

/-! ## A score goes by its endpoint -/

/-- A score is entered under its endpoint and heard, and what is left to its watch is to be marked.
-/
theorem deliver_eq_marked {s : Supervisor σ} {i : Nat} {w : Watch} (hw : s.watches[i]? = some w)
    (score : Float) (final : Bool) :
    s.deliver i score final = marked
      (if s.abandoned then some s else (s.enterScore w score final).consult w.origin score) i := by
  rw [deliver.eq_1, hw]
  cases s.abandoned with
  | true => rfl
  | false => exact Option.map_eq_bind.symm

/-- Scores of two watches on one endpoint that are entered alike come to the same. -/
theorem deliver_alike {s : Supervisor σ} {i j : Nat} {v w : Watch} {score : Float}
    {final final' : Bool} (hi : s.watches[i]? = some v) (hj : s.watches[j]? = some w)
    (horigin : v.origin = w.origin)
    (hentered : s.enterScore v score final = s.enterScore w score final') :
    ∃ outcome, s.deliver i score final = marked outcome i ∧
      s.deliver j score final' = marked outcome j := by
  refine ⟨_, deliver_eq_marked hi score final, ?_⟩
  rw [deliver_eq_marked hj, horigin, hentered]

omit [Strategy σ] in
/-- A score of a watch that lives is recorded, and published if it turns its endpoint. -/
theorem enterScore_of_live {s : Supervisor σ} {w : Watch} (hlive : w.retired = false)
    (score : Float) :
    s.enterScore w score false =
      (s.record w.origin score).republishIf (s.health.turns w.origin score) := by
  rw [enterScore, hlive]
  rfl

omit [Strategy σ] in
/-- The final score of a watch whose endpoint is a candidate is entered like any other. -/
theorem enterScore_final {s : Supervisor σ} {w : Watch} (hcandidate : w.origin ∈ s.candidates)
    (score : Float) :
    s.enterScore w score true =
      (s.record w.origin score).republishIf (s.health.turns w.origin score) := by
  have hcontains : s.candidates.contains w.origin = true := by simpa using hcandidate
  rw [enterScore, hcontains, Bool.not_true, Bool.and_false]
  rfl

/-- A score of the old watch counts like one of the new watch. -/
theorem Overlap.report_alike {s : Supervisor σ} {e : Endpoint} {old new : Nat}
    (h : s.Overlap e old new) (hmanned : s.Manned) (score : Float) :
    ∃ outcome, s.report old score = marked outcome old ∧
      s.report new score = marked outcome new := by
  obtain ⟨v, hv, hvorigin, hvlive⟩ := h.lives
  obtain ⟨w, hw, hworigin, hwlive⟩ := hmanned.live e new h.inForce
  have horigin : v.origin = w.origin := hvorigin.trans hworigin.symm
  refine deliver_alike hv hw horigin ?_
  rw [enterScore_of_live hvlive, enterScore_of_live hwlive, horigin]

/-- The old watch's end counts like a score of zero of the new watch, as long as the endpoint is a
candidate. -/
theorem Overlap.retire_alike {s : Supervisor σ} {e : Endpoint} {old new : Nat}
    (h : s.Overlap e old new) (hmanned : s.Manned) (hcandidate : e ∈ s.candidates) :
    ∃ outcome, s.retire old = marked outcome old ∧
      (s.modifyWatch old Watch.retire).report new 0.0 = marked outcome new := by
  obtain ⟨v, hv, rfl, hvlive⟩ := h.lives
  obtain ⟨w, hw, hworigin, hwlive⟩ := hmanned.live v.origin new h.inForce
  have hne := h.ne
  have hvend : (s.modifyWatch old Watch.retire).watches[old]? = some v.retire := by
    simp [modifyWatch, hv]
  have hwstill : (s.modifyWatch old Watch.retire).watches[new]? = some w := by
    simp [modifyWatch, hne, hw]
  have hretire : s.retire old = (s.modifyWatch old Watch.retire).deliver old 0.0 true := by
    rw [retire, hv]
    simp [hvlive]
  rw [hretire]
  refine deliver_alike hvend hwstill hworigin.symm ?_
  have hfinal :=
    enterScore_final (s := s.modifyWatch old Watch.retire) (w := v.retire) hcandidate 0.0
  have horigin : v.retire.origin = w.origin := hworigin.symm
  rw [hfinal, enterScore_of_live hwlive, horigin]

/-- Ending a watch leaves all others on their endpoints and with their jobs. -/
theorem carried_retire {s t : Supervisor σ} (hrest : s.refreshing = false) {i : Nat}
    (h : s.retire i = some t) : Carried (s.modifyWatch i Watch.retire) t ∨ t = s := by
  rcases retire_eq_some h with rfl | ⟨-, -, -, h⟩
  · exact Or.inr rfl
  · refine Or.inl (carried_deliver ?_ h)
    exact hrest

/-- The new watch lives on with its jobs when the old one ends. -/
theorem Overlap.new_lives {s t : Supervisor σ} {e : Endpoint} {old new : Nat}
    (h : s.Overlap e old new) (hmanned : s.Manned) (hrest : s.refreshing = false)
    (ht : s.retire old = some t) :
    ∃ v w : Watch, s.watches[new]? = some v ∧ t.watches[new]? = some w ∧ w.origin = e ∧
      w.roster = v.roster ∧ w.retired = false := by
  obtain ⟨v, hv, hvorigin, hvlive⟩ := hmanned.live e new h.inForce
  rcases carried_retire hrest ht with hcarried | rfl
  · have hstill : (s.modifyWatch old Watch.retire).watches[new]? = some v := by
      simp [modifyWatch, h.ne, hv]
    obtain ⟨w, hw, horigin, hroster⟩ := hcarried new v hstill
    have hwlive : w.retired = false := (congrArg Roster.closed hroster).trans hvlive
    exact ⟨v, w, hv, hw, horigin.trans hvorigin, hroster, hwlive⟩
  · exact ⟨v, v, hv, hv, hvorigin, rfl, hvlive⟩

/-! ## Main statement -/

/-- While an endpoint has a new watch in force and an old one that has not ended, a score of the old
watch comes to the same as that score of the new watch, in the middle of a call too, and the old
watch's end comes to the same as a score of zero of the new watch, except for which of the two is
marked as having reported. The new watch lives on with its jobs. -/
theorem scores_go_by_endpoint (terms : Terms) (policy : Policy) (hunused : policy.Unused)
    {events : List Event} {s : Supervisor Policy} (h : Run (fresh terms policy) events s) :
    (∀ u e old new, u = s ∨ Moment (fresh terms policy) events s u → u.Overlap e old new →
      ∀ score, ∃ outcome, u.report old score = marked outcome old ∧
        u.report new score = marked outcome new) ∧
    ∀ e old new, s.Overlap e old new →
      (∃ outcome, s.retire old = marked outcome old ∧
        (s.modifyWatch old Watch.retire).report new 0.0 = marked outcome new) ∧
      ∀ t, s.retire old = some t → ∃ v w : Watch, s.watches[new]? = some v ∧
        t.watches[new]? = some w ∧ w.origin = e ∧ w.roster = v.roster ∧ w.retired = false := by
  constructor
  · intro u e old new hu hoverlap score
    rcases hu with rfl | hu
    · exact hoverlap.report_alike h.manned score
    · exact hoverlap.report_alike hu.manned score
  · intro e old new hoverlap
    have hcandidate := mem_candidates_of_inForce hunused h
      (mem_inForce.mpr ⟨new, hoverlap.inForce⟩)
    refine ⟨hoverlap.retire_alike h.manned hcandidate, ?_⟩
    intro t ht
    exact hoverlap.new_lives h.manned h.refreshing ht

/-- An endpoint is put out and comes back while its old watch is still being stopped. -/
theorem end_counts_like_a_score_of_zero :
    let a : Endpoint := { host := "a" }
    let b : Endpoint := { host := "b" }
    let events : List Event := [.offer [a], .start, .offer [b], .offer [a], .report 2 1.0]
    ∃ s, Run (fresh {} (Policy.ofQuota none)) events s ∧ s.Overlap a 0 2 ∧
      ∃ outcome, s.retire 0 = marked outcome 0 ∧
        (s.modifyWatch 0 Watch.retire).report 2 0.0 = marked outcome 2 := by
  intro a b events
  obtain ⟨s, h, hoverlap⟩ :
      ∃ s, Run (fresh {} (Policy.ofQuota none)) events s ∧ s.Overlap a 0 2 :=
    exists_run_of_replay (n := 9) rfl (by decide)
  have hends := (scores_go_by_endpoint {} _ (Policy.unused_ofQuota none) h).2
  exact ⟨s, h, hoverlap, (hends a 0 2 hoverlap).1⟩

/-- A failure reported by the old watch, and the old watch's end alike, make a healthy endpoint
unhealthy although its new watch has just reported it healthy, and put it out of the selection. -/
theorem old_watch_unsettles_its_successor :
    let a : Endpoint := { host := "a" }
    let b : Endpoint := { host := "b" }
    let events : List Event :=
      [.offer [a], .start, .offer [b], .offer [a], .offer [a, b], .report 2 1.0]
    let unsettled (s t : Supervisor Policy) : Prop :=
      s.Overlap a 0 2 ∧ s.health.isHealthy a = true ∧ t.health.isHealthy a = false ∧
        s.endpoints = [a] ∧ t.endpoints = [] ∧ Strategy.selected s.strategy = [a] ∧
        Strategy.selected t.strategy = [b]
    (∃ s t, Run (fresh {} (Policy.ofQuota (some (.count 1)))) events s ∧
      s.report 0 0.0 = some t ∧ unsettled s t) ∧
    ∃ s t, Run (fresh {} (Policy.ofQuota (some (.count 1)))) events s ∧
      s.retire 0 = some t ∧ unsettled s t := by
  intro a b events unsettled
  constructor
  · obtain ⟨s, t, h, k, hst⟩ :
        ∃ s t, Run (fresh {} (Policy.ofQuota (some (.count 1)))) events s ∧
          Step s (.report 0 0.0) t ∧ unsettled s t :=
      exists_step_of_replay (n := 9) (by decide)
    cases k with
    | report hreport => exact ⟨s, t, h, hreport, hst⟩
  · obtain ⟨s, t, h, k, hst⟩ :
        ∃ s t, Run (fresh {} (Policy.ofQuota (some (.count 1)))) events s ∧
          Step s (.retire 0) t ∧ unsettled s t :=
      exists_step_of_replay (n := 9) (by decide)
    cases k with
    | retire hfree hretire => exact ⟨s, t, h, hretire, hst⟩

end HealthWatch.Supervisor
