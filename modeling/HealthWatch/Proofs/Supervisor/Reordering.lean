import HealthWatch.Proofs.Supervisor.Overlap
import HealthWatch.Proofs.Supervisor.Publication
import Mathlib.Data.List.Induction

/-!
# Reports in another order

A strategy may pay no attention to reports (`Strategy.Heedless`). Then a report makes no passes: it
enters its score in the book, and what it publishes on the way goes by the book. So what reports of
watches in force leave is their last score on each endpoint (`Run.exists_aftermath`), and as an
endpoint has one watch in force at most, that is the last score of this watch. It does not matter
how the reports of different watches come in between.
-/

set_option autoImplicit false

namespace HealthWatch

/-! ## Strategies that do not listen -/

/-- Whatever it has heard, the strategy pays no attention to reports. -/
def Strategy.Heedless {σ : Type} [Strategy σ] (first : σ) : Prop :=
  ∀ candidates s, Strategy.Heard first candidates s →
    ∀ e score, Strategy.judge s e score = (s, false)

/-- Checking all candidates goes by the candidates only. -/
theorem Policy.heedless_ofQuota_none : Strategy.Heedless (Policy.ofQuota none) := by
  have hall {candidates : List Endpoint} {p : Policy}
      (h : Strategy.Heard (Policy.ofQuota none) candidates p) : ∃ state, p = .all state := by
    induction h with
    | first => exact ⟨_, rfl⟩
    | offer _ _ ih =>
      obtain ⟨state, rfl⟩ := ih
      exact ⟨_, rfl⟩
    | judge _ _ _ ih =>
      obtain ⟨state, rfl⟩ := ih
      exact ⟨_, rfl⟩
  intro candidates p h e score
  obtain ⟨state, rfl⟩ := hall h
  rfl

/-- The scores say all there is to a book. -/
theorem HealthBook.alike_of_score? {a b : HealthBook} (h : ∀ e, a.score? e = b.score? e) :
    a.isHealthy = b.isHealthy ∧ a.snapshot = b.snapshot := by
  have hhealthy : a.isHealthy = b.isHealthy := by
    funext e
    rw [isHealthy_eq, isHealthy_eq, h e]
  refine ⟨hhealthy, ?_⟩
  funext candidates
  have hentries : a.healthOf = b.healthOf := by
    funext e
    rw [healthOf, healthOf, h e, hhealthy]
  rw [snapshot, snapshot, hentries]

namespace Supervisor

variable {σ : Type} [Strategy σ]

/-! ## What a report comes to -/

/-- Takes reports one after the other, each of a watch with its score. -/
def takeReports (s : Supervisor σ) (reports : List (Nat × Float)) : Option (Supervisor σ) :=
  reports.foldlM (fun s r => s.report r.1 r.2) s

omit [Strategy σ] in
/-- The reports on an endpoint, which are those of its watch in force. -/
def reportsOn (s : Supervisor σ) (e : Endpoint) (reports : List (Nat × Float)) :
    List (Nat × Float) :=
  reports.filter (fun r => s.current.contains (e, r.1))

/-- What reports leave: no watch is begun or let go, and the last report on an endpoint is its
score. A closed feed stays as it is. -/
structure Aftermath (s : Supervisor σ) (reports : List (Nat × Float)) (t : Supervisor σ) :
    Prop where
  current : t.current = s.current
  candidates : t.candidates = s.candidates
  started : t.started = s.started
  feedClosed : t.published.closed = s.published.closed
  endpoints : s.published.closed = true → t.endpoints = s.endpoints
  score? : ∀ e, t.health.score? e =
    ((s.reportsOn e reports).getLast?.map Prod.snd).or (s.health.score? e)

omit [Strategy σ] in
/-- No reports leave everything as it was. -/
theorem Aftermath.nil (s : Supervisor σ) : Aftermath s [] s :=
  ⟨rfl, rfl, rfl, rfl, fun _ => rfl, fun _ => rfl⟩

/-- A report of a watch in force that the strategy does not listen to. -/
theorem report_of_heedless {s : Supervisor σ} (hmanned : s.Manned) (hthere : s.abandoned = false)
    (hheedless : ∀ e score, Strategy.judge s.strategy e score = (s.strategy, false))
    {e : Endpoint} {i : Nat} (hin : (e, i) ∈ s.current) (score : Float) :
    s.report i score = some (((s.record e score).republishIf (s.health.turns e score)).modifyWatch i
      Watch.markReported) := by
  obtain ⟨w, hw, rfl, hlive⟩ := hmanned.live e i hin
  obtain ⟨feed, outbox, heq⟩ :=
    republishIf_eq (s.record w.origin score) (s.health.turns w.origin score)
  have hjudged : Strategy.judge (s.record w.origin score).strategy w.origin score =
      (s.strategy, false) := hheedless w.origin score
  rw [report, deliver_eq_marked hw, hthere, enterScore_of_live hlive, heq, consult.eq_1]
  simp only [Bool.false_eq_true, if_false, hjudged]
  rfl

omit [Strategy σ] in
/-- A further report of a watch in force leaves its score on the endpoint, and every other score. -/
theorem Aftermath.snoc {s t : Supervisor σ} {reports : List (Nat × Float)}
    (h : Aftermath s reports t) (hmanned : s.Manned) {e : Endpoint} {i : Nat}
    (hin : (e, i) ∈ s.current) (score : Float) :
    Aftermath s (reports ++ [(i, score)])
      (((t.record e score).republishIf (t.health.turns e score)).modifyWatch i
        Watch.markReported) := by
  have hsteady := Steady.republishIf (t.record e score) (t.health.turns e score)
  obtain ⟨feed, outbox, heq⟩ := republishIf_eq (t.record e score) (t.health.turns e score)
  have hon (f : Endpoint) : s.current.contains (f, i) = decide (f = e) := by
    rw [Bool.eq_iff_iff, List.contains_iff_mem, decide_eq_true_iff]
    refine ⟨fun hf => ?_, fun hf => hf ▸ hin⟩
    -- the watch has one endpoint
    obtain ⟨w, hw, horigin, -⟩ := hmanned.live e i hin
    obtain ⟨v, hv, hother, -⟩ := hmanned.live f i hf
    obtain rfl : w = v := Option.some.inj (hw.symm.trans hv)
    exact hother.symm.trans horigin
  refine ⟨?_, ?_, ?_, ?_, ?_, ?_⟩
  · rw [heq]
    exact h.current
  · rw [heq]
    exact h.candidates
  · exact hsteady.started.trans h.started
  · exact hsteady.feedClosed.trans h.feedClosed
  · intro hclosed
    have hstill : (t.record e score).published.closed = true := h.feedClosed.trans hclosed
    rw [republishIf_of_closed hstill]
    exact h.endpoints hclosed
  · intro f
    have hlast : s.reportsOn f (reports ++ [(i, score)]) =
        s.reportsOn f reports ++ if f = e then [(i, score)] else [] := by
      rw [reportsOn, reportsOn, List.filter_append, List.filter_singleton, hon]
      simp
    rw [heq, hlast]
    show (t.health.record e score).score? f = _
    rw [HealthBook.score?_record]
    split
    · simp
    · rw [List.append_nil]
      exact h.score? f

/-! ## What several reports come to -/

/-- Reports of watches in force are taken one after the other, and what they leave is known. -/
theorem Run.exists_aftermath {terms : Terms} {strategy : σ} (hheedless : Strategy.Heedless strategy)
    {events : List Event} {s : Supervisor σ} (h : Run (fresh terms strategy) events s)
    {reports : List (Nat × Float)} (hforce : ∀ r ∈ reports, r.1 ∈ s.barrier) :
    ∃ t, s.takeReports reports = some t ∧
      Run (fresh terms strategy) (events ++ reports.map fun r => .report r.1 r.2) t ∧
      Aftermath s reports t := by
  induction reports using List.reverseRecOn with
  | nil => exact ⟨s, rfl, by simpa using h, Aftermath.nil s⟩
  | append_singleton reports r ih =>
    obtain ⟨t, ht, hrun, hafter⟩ := ih fun q hq => hforce q (List.mem_append_left _ hq)
    obtain ⟨i, score⟩ := r
    obtain ⟨e, hin⟩ := mem_barrier.mp (hforce (i, score) (by simp))
    have hreport := report_of_heedless hrun.manned hrun.abandoned (hheedless _ _ hrun.heard)
      (hafter.current ▸ hin) score
    refine ⟨_, ?_, ?_, hafter.snoc h.manned hin score⟩
    · rw [takeReports] at ht ⊢
      rw [List.foldlM_append, ht, Option.bind_eq_bind, Option.bind_some, List.foldlM_cons, hreport]
      rfl
    · rw [List.map_append, ← List.append_assoc]
      exact hrun.snoc (Step.report hreport)

omit [Strategy σ] in
/-- Reports that keep the order of each watch are the same on each endpoint. -/
theorem Manned.reportsOn_congr {s : Supervisor σ} (h : s.Manned)
    {first second : List (Nat × Float)}
    (hsame : ∀ i, first.filter (fun r => r.1 == i) = second.filter (fun r => r.1 == i))
    (e : Endpoint) : s.reportsOn e first = s.reportsOn e second := by
  by_cases he : e ∈ s.inForce
  · obtain ⟨i, hi⟩ := mem_inForce.mp he
    have hone : (fun r : Nat × Float => s.current.contains (e, r.1)) = fun r => r.1 == i := by
      funext r
      rw [Bool.eq_iff_iff, List.contains_iff_mem, beq_iff_eq]
      refine ⟨fun hr => ?_, fun hr => hr ▸ hi⟩
      have hentry := List.inj_on_of_nodup_map h.once hr hi rfl
      exact congrArg Prod.snd hentry
    rw [reportsOn, reportsOn, hone]
    exact hsame i
  · have hnone : (fun r : Nat × Float => s.current.contains (e, r.1)) = fun _ => false := by
      funext r
      have hr : (e, r.1) ∉ s.current := fun hr => he (mem_inForce.mpr ⟨r.1, hr⟩)
      simpa using hr
    rw [reportsOn, reportsOn, hnone, List.filter_false, List.filter_false]

/-! ## Main statement -/

/-- A started supervisor that checks all candidates takes reports of its watches in force in any
order, if only each watch's own reports keep theirs: in the end every endpoint has the same score
and the same health, the same endpoints are published, and the snapshots are equal. -/
theorem reports_may_come_in_another_order (terms : Terms) {events : List Event}
    {s : Supervisor Policy} (h : Run (fresh terms (Policy.ofQuota none)) events s)
    (hstarted : s.started = true) {first second : List (Nat × Float)}
    (hforce : ∀ r ∈ first, r.1 ∈ s.barrier)
    (hsame : ∀ i, first.filter (fun r => r.1 == i) = second.filter (fun r => r.1 == i)) :
    ∃ t u, s.takeReports first = some t ∧ s.takeReports second = some u ∧
      (∀ e, t.health.isHealthy e = u.health.isHealthy e) ∧
      (∀ e, t.health.score? e = u.health.score? e) ∧
      t.endpoints = u.endpoints ∧ t.snapshot = u.snapshot := by
  have hforce' : ∀ r ∈ second, r.1 ∈ s.barrier := by
    intro r hr
    have hmem : r ∈ first.filter (fun q => q.1 == r.1) := by
      rw [hsame]
      simpa using hr
    exact hforce r (List.mem_filter.mp hmem).1
  obtain ⟨t, ht, htrun, hafter⟩ := h.exists_aftermath Policy.heedless_ofQuota_none hforce
  obtain ⟨u, hu, hurun, hafter'⟩ := h.exists_aftermath Policy.heedless_ofQuota_none hforce'
  have hscore (e : Endpoint) : t.health.score? e = u.health.score? e := by
    rw [hafter.score?, hafter'.score?, h.manned.reportsOn_congr hsame]
  obtain ⟨hhealthy, hsnapshot⟩ := HealthBook.alike_of_score? hscore
  have hcandidates : t.candidates = u.candidates :=
    hafter.candidates.trans hafter'.candidates.symm
  refine ⟨t, u, ht, hu, congrFun hhealthy, hscore, ?_, ?_⟩
  -- a closed feed keeps its list, and an open one shows the healthy candidates after every report
  · cases hclosed : s.published.closed with
    | true => exact (hafter.endpoints hclosed).trans (hafter'.endpoints hclosed).symm
    | false =>
      have hone := htrun.upToDate (hafter.started.trans hstarted) (hafter.feedClosed.trans hclosed)
      have hother :=
        hurun.upToDate (hafter'.started.trans hstarted) (hafter'.feedClosed.trans hclosed)
      rw [hone, hother, healthyCandidates, healthyCandidates, HealthBook.healthyOf,
        HealthBook.healthyOf, hhealthy, hcandidates]
  · rw [snapshot, snapshot, hsnapshot, hcandidates]

/-- Reports that are replayed are taken. -/
theorem takeReports_of_replay {n : Nat} {reports : List (Nat × Float)} {s t : Supervisor σ}
    (hrest : s.refreshing = false)
    (h : s.replay n (reports.map fun r => .report r.1 r.2) = some t) :
    s.takeReports reports = some t := by
  induction reports generalizing s with
  | nil => exact h
  | cons r reports ih =>
    rw [replay, List.map_cons, List.foldlM_cons] at h
    obtain ⟨u, hu, h⟩ := Option.bind_eq_some_iff.mp h
    have hstep := step_of_replayEvent hrest hu
    have htaken := ih (hstep.refreshing hrest) h
    cases hstep with
    | report hreport =>
      rw [takeReports, List.foldlM_cons]
      exact Option.bind_eq_some_iff.mpr ⟨u, hreport, htaken⟩

/-- Three endpoints are checked, one of them a candidate twice, and the watches on two of them
report twice. In either order the third endpoint alone is published in the end, and the last scores
of the other two are bad. -/
theorem five_reports_in_another_order :
    let a : Endpoint := { host := "a" }
    let b : Endpoint := { host := "b" }
    let c : Endpoint := { host := "c" }
    let events : List Event := [.offer [a, b, c, a], .start]
    let first : List (Nat × Float) := [(0, 1.0), (1, 1.0), (2, 1.0), (0, 0.0), (1, -1.0)]
    let second : List (Nat × Float) := [(1, 1.0), (1, -1.0), (0, 1.0), (0, 0.0), (2, 1.0)]
    let final : HealthSnapshot :=
      { candidates := 4, healthy := 1, endpoints := [⟨a, some 0.0, false⟩,
        ⟨b, some (-1.0), false⟩, ⟨c, some 1.0, true⟩, ⟨a, some 0.0, false⟩] }
    ∃ s, Run (fresh {} (Policy.ofQuota none)) events s ∧ s.started = true ∧
      (∀ r ∈ first, r.1 ∈ s.barrier) ∧
      (∀ i, first.filter (fun r => r.1 == i) = second.filter (fun r => r.1 == i)) ∧
      ∃ t u, s.takeReports first = some t ∧ s.takeReports second = some u ∧
        t.endpoints = [c] ∧ u.endpoints = [c] ∧ t.snapshot = final ∧ u.snapshot = final := by
  intro a b c events first second final
  obtain ⟨s, h, hstarted, hbarrier, hreplay⟩ :
      ∃ s, Run (fresh {} (Policy.ofQuota none)) events s ∧ s.started = true ∧
        s.barrier = [0, 1, 2] ∧ (s.replay 9 (first.map fun r => .report r.1 r.2)).any
          (fun t => decide (t.endpoints = [c] ∧ t.snapshot = final)) = true :=
    exists_run_of_replay (n := 9) rfl (by decide)
  have hforce : ∀ r ∈ first, r.1 ∈ s.barrier := by
    rw [hbarrier]
    simp [first]
  have hsame : ∀ i, first.filter (fun r => r.1 == i) = second.filter (fun r => r.1 == i)
    | 0 => rfl
    | 1 => rfl
    | 2 => rfl
    | _ + 3 => rfl
  obtain ⟨t, u, ht, hu, -, -, hlists, hsnapshots⟩ :=
    reports_may_come_in_another_order {} h hstarted hforce hsame
  obtain ⟨v, hv, hend⟩ := (Option.any_eq_true _ _).mp hreplay
  obtain rfl : t = v := Option.some.inj (ht.symm.trans (takeReports_of_replay h.refreshing hv))
  obtain ⟨hlist, hsnapshot⟩ := of_decide_eq_true hend
  exact ⟨s, h, hstarted, hforce, hsame, t, u, ht, hu, hlist, hlists.symm.trans hlist, hsnapshot,
    hsnapshots.symm.trans hsnapshot⟩

end Supervisor

end HealthWatch
