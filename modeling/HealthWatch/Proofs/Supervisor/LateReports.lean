import HealthWatch.Proofs.Supervisor.Overlap

/-!
# Reports of retired watches

The book does not take a score of a retired watch, but the strategy hears it all the same. So such a
report changes nothing exactly if the strategy is indifferent to it. That it does change something
otherwise has three parts: a strategy that changed and asked for no pass stays changed; a policy
that records reports never forgets one; and a pass that puts an endpoint out takes its watch out of
force for good, since later watches get new numbers (`put_out_stays_out`).
-/

set_option autoImplicit false

namespace HealthWatch.Supervisor

variable {σ : Type} [Strategy σ]

/-! ## What a late report is -/

/-- A late report goes to the strategy only. -/
theorem report_of_retired {s : Supervisor σ} (hthere : s.abandoned = false) {i : Nat} {w : Watch}
    (hw : s.watches[i]? = some w) (hretired : w.retired = true) (score : Float) :
    s.report i score = marked (s.consult w.origin score) i := by
  have hignored : s.enterScore w score false = s := by
    rw [enterScore, hretired]
    rfl
  rw [report, deliver_eq_marked hw, hthere, hignored]
  rfl

/-! ## Numbers of watches are never used again -/

/-- A watch that is not in force does not come into force any more. -/
theorem keptByPasses_out {e : Endpoint} {i : Nat} :
    KeptByPasses fun s : Supervisor σ => i < s.watches.length ∧ (e, i) ∉ s.current where
  setRequested _ _ h := h
  setRefreshing _ _ h := h
  beginOnce s f _ h := by
    obtain ⟨v, hv, -, -⟩ := begun_watch s f (s.terms.greeting (s.watches.map Watch.origin) f)
    obtain ⟨hlonger, -⟩ := List.getElem?_eq_some_iff.mp hv
    refine ⟨Nat.lt_trans h.1 hlonger, ?_⟩
    show (e, i) ∉ (List.foldl interject (s.addWatch f) _).current ++ [(f, s.watches.length)]
    rw [current_foldl_interject]
    intro hin
    rcases List.mem_append.mp hin with hin | hin
    · exact h.2 hin
    · obtain ⟨-, hnumber⟩ := Prod.mk.inj (List.mem_singleton.mp hin)
      exact absurd h.1 (by omega)
  releaseUnchosen _ _ h := ⟨h.1, fun hin => h.2 (List.mem_filter.mp hin).1⟩
  noteChecked _ h := h

/-- A request takes the watches of endpoints that are not selected out of force for good. -/
theorem put_out_stays_out {s t : Supervisor σ} (hrest : s.refreshing = false)
    (hopen : s.closing = false) (h : s.refresh = some t) {e : Endpoint} {i : Nat}
    (hnumber : i < s.watches.length) (hout : e ∉ Strategy.selected s.strategy) :
    (e, i) ∉ t.current := by
  obtain ⟨n, u, hn, rfl⟩ := (refresh_eq_some_iff hrest hopen).mp h
  cases n with
  | zero => simp [passesWithin] at hn
  | succ n =>
    simp only [passesWithin] at hn
    have hdue : ((s.setRequested true).setRefreshing true).requested = true := rfl
    have hstill : ((s.setRequested true).setRefreshing true).closing = false := hopen
    rw [if_pos hdue, if_neg (by simp [hstill])] at hn
    -- the first pass releases the watch, and what follows keeps it out
    have hreleased : i < (s.releaseUnchosen (Strategy.selected s.strategy)).watches.length ∧
        (e, i) ∉ (s.releaseUnchosen (Strategy.selected s.strategy)).current := by
      refine ⟨hnumber, fun hin => hout ?_⟩
      simpa using (List.mem_filter.mp hin).2
    have hkeeps : KeptByPasses fun u : Supervisor σ => i < u.watches.length ∧ (e, i) ∉ u.current :=
      keptByPasses_out
    refine (hkeeps.passesWithin hn (hkeeps.noteChecked _ (hkeeps.ensureWatches ?_ _))).2
    exact hreleased

/-! ## Policies that are not indifferent -/

/-- A request leaves everything that was recorded. -/
theorem told_refresh {s t : Supervisor Policy} (hrest : s.refreshing = false)
    (h : s.refresh = some t) : s.strategy.told.length ≤ t.strategy.told.length := by
  have hmoves : Moves s t := (keptByPasses_moves s).refresh hrest h Relation.ReflTransGen.refl
  refine Moves.keeps (P := fun u => s.strategy.told.length ≤ u.strategy.told.length) ?_ hmoves
    (Nat.le_refl _)
  intro u v hu m
  refine m.strategy_keeps (P := fun _ p => s.strategy.told.length ≤ p.told.length) ?_ ?_ hu
  · intro old candidates p hp
    show _ ≤ (p.offer candidates).told.length
    rw [Policy.length_told_offer]
    exact hp
  · intro candidates p e score hp
    exact Nat.le_trans hp (Policy.length_told_judge p e score)

/-- The passes after a report that asks for them do not bring back both the watches in force and
the policy. -/
theorem changed_of_moved {s t : Supervisor Policy} (hsound : s.strategy.Sound s.candidates)
    (hmanned : s.Manned) (hline : s.InLine) (hrest : s.refreshing = false)
    (hopen : s.closing = false) {e : Endpoint} {score : Float}
    (hmoved : (s.strategy.judge e score).2 = true)
    (h : (s.setStrategy (s.strategy.judge e score).1).refresh = some t)
    (hcurrent : t.current = s.current) : t.strategy ≠ s.strategy := by
  have hrest' : (s.setStrategy (s.strategy.judge e score).1).refreshing = false := hrest
  rcases Policy.exists_put_out_or_told hsound hmoved with ⟨f, hf, hout⟩ | htold
  · obtain ⟨i, hi⟩ := mem_inForce.mp ((hline.followed f).mpr hf)
    obtain ⟨w, hw, -, -⟩ := hmanned.live f i hi
    obtain ⟨hnumber, -⟩ := List.getElem?_eq_some_iff.mp hw
    have hgone : (f, i) ∉ t.current := by
      refine put_out_stays_out hrest' ?_ h ?_ ?_
      · exact hopen
      · exact hnumber
      · exact hout
    rw [hcurrent] at hgone
    exact absurd hi hgone
  · intro hsame
    have hkept := told_refresh hrest' h
    rw [hsame] at hkept
    exact absurd htold (Nat.not_lt.mpr hkept)

/-! ## Main statement -/

/-- A report of a retired watch leaves the book, the published endpoints, the watches in force and
the strategy as they are exactly if the strategy is indifferent to it; between two events and in
the middle of passes. -/
theorem late_report_keeps_everything_iff (terms : Terms) (policy : Policy)
    (hunused : policy.Unused) {events : List Event} {s u : Supervisor Policy}
    (h : Run (fresh terms policy) events s)
    (hu : u = s ∨ Moment (fresh terms policy) events s u ∧ u.refreshing = true) {i : Nat}
    {w : Watch} (hw : u.watches[i]? = some w) (hretired : w.retired = true) (score : Float) :
    (∃ t, u.report i score = some t ∧ t.health = u.health ∧ t.published = u.published ∧
      t.current = u.current ∧ t.strategy = u.strategy) ↔
        u.strategy.Indifferent w.origin score := by
  have hsound : u.strategy.Sound u.candidates := by
    rcases hu with rfl | ⟨hu, -⟩
    · exact h.sound hunused
    · exact hu.sound hunused
  have hthere : u.abandoned = false := by
    rcases hu with rfl | ⟨hu, -⟩
    · exact h.abandoned
    · exact hu.keeps_moves (P := fun t => t.abandoned = false) (fun _ _ ht m => m.abandoned ht) rfl
  rw [report_of_retired hthere hw hretired]
  constructor
  · rintro ⟨t, ht, -, -, hcurrent, hstrategy⟩
    rw [← Policy.judge_eq_self_iff hsound]
    obtain ⟨v, hv, rfl⟩ := Option.map_eq_some_iff.mp ht
    have hcurrent : v.current = u.current := hcurrent
    have hstrategy : v.strategy = u.strategy := hstrategy
    -- Between two events a moved selection starts passes, and they change who is watched. Within
    -- passes nothing runs but the strategy.
    rcases hu with rfl | ⟨-, hbusy⟩
    · rcases consult_cases hv with ⟨-, rfl⟩ | ⟨hmoved, hv⟩
      · exact hstrategy
      · cases hclosing : u.closing with
        | true =>
          rw [refresh_of_closing (by exact hclosing)] at hv
          cases hv
          exact hstrategy
        | false =>
          obtain ⟨-, hline⟩ := (h.reconciled hunused.selected).followed hclosing
          exact absurd hstrategy
            (changed_of_moved hsound h.manned hline h.refreshing hclosing hmoved hv hcurrent)
    · rw [consult_of_refreshing hbusy] at hv
      cases hv
      exact hstrategy
  · intro hsame
    have hstay := (Policy.judge_eq_self_iff hsound).mpr hsame
    have hquiet : (Strategy.judge u.strategy w.origin score).2 = false :=
      Policy.quiet_of_indifferent hsound hsame
    have hconsult : u.consult w.origin score =
        some (u.setStrategy (u.strategy.judge w.origin score).1) := by
      rw [consult.eq_1]
      exact if_neg (by simpa using hquiet)
    rw [hconsult]
    exact ⟨_, rfl, rfl, rfl, rfl, hstay⟩

/-- A selected endpoint that is not marked has a retired watch besides the one in force. A good late
report is taken without a change. -/
theorem good_late_report_keeps_everything :
    let a : Endpoint := { host := "a" }
    let b : Endpoint := { host := "b" }
    let events : List Event :=
      [.offer [a], .start, .offer [b], .retire 0, .offer [a, b], .report 1 0.0]
    ∃ s w t, Run (fresh {} (Policy.ofQuota (some (.count 1)))) events s ∧
      s.watches[0]? = some w ∧ w.retired = true ∧ s.inForce = [a] ∧ s.report 0 1.0 = some t ∧
      t.health = s.health ∧ t.published = s.published ∧ t.current = s.current ∧
      t.strategy = s.strategy := by
  intro a b events
  obtain ⟨s, h, hlate, hinForce⟩ :
      ∃ s, Run (fresh {} (Policy.ofQuota (some (.count 1)))) events s ∧
        (s.watches[0]?).any (fun w => w.retired && s.strategy.Indifferent w.origin 1.0) = true ∧
        s.inForce = [a] :=
    exists_run_of_replay (n := 9) rfl (by decide)
  obtain ⟨w, hw, hlate⟩ := (Option.any_eq_true _ _).mp hlate
  obtain ⟨hretired, hsame⟩ : w.retired = true ∧ s.strategy.Indifferent w.origin 1.0 := by
    simpa using hlate
  obtain ⟨t, ht, hkept⟩ :=
    (late_report_keeps_everything_iff {} _ (Policy.unused_ofQuota _) h (Or.inl rfl) hw hretired
      1.0).mpr hsame
  exact ⟨s, w, t, h, hw, hretired, hinForce, ht, hkept⟩

/-- A late failure puts the endpoint out although its watch in force has reported it healthy, and a
policy that records reports records the late ones. -/
theorem late_failure_is_heard :
    let a : Endpoint := { host := "a" }
    let b : Endpoint := { host := "b" }
    let events : List Event :=
      [.offer [a], .start, .offer [b], .retire 0, .offer [a], .offer [a, b], .report 2 1.0]
    (∃ s t, Run (fresh {} (Policy.ofQuota (some (.count 1)))) events s ∧
      (s.watches[0]?).any Watch.retired = true ∧ s.report 0 0.0 = some t ∧
      Strategy.selected s.strategy = [a] ∧ Strategy.selected t.strategy = [b] ∧
      s.inForce = [a] ∧ t.inForce = [b]) ∧
    ∃ s t, Run (fresh {} (Policy.recorded [] false (Policy.ofQuota none))) events s ∧
      (s.watches[0]?).any Watch.retired = true ∧ s.report 0 0.0 = some t ∧
      t.strategy.told.length = s.strategy.told.length + 1 := by
  intro a b events
  constructor
  · obtain ⟨s, t, h, k, hretired, hst⟩ :
        ∃ s t, Run (fresh {} (Policy.ofQuota (some (.count 1)))) events s ∧
          Step s (.report 0 0.0) t ∧ (s.watches[0]?).any Watch.retired = true ∧
          Strategy.selected s.strategy = [a] ∧ Strategy.selected t.strategy = [b] ∧
          s.inForce = [a] ∧ t.inForce = [b] :=
      exists_step_of_replay (n := 9) (by decide)
    cases k with
    | report hreport => exact ⟨s, t, h, hretired, hreport, hst⟩
  · obtain ⟨s, t, h, k, hretired, htold⟩ :
        ∃ s t, Run (fresh {} (Policy.recorded [] false (Policy.ofQuota none))) events s ∧
          Step s (.report 0 0.0) t ∧ (s.watches[0]?).any Watch.retired = true ∧
          t.strategy.told.length = s.strategy.told.length + 1 :=
      exists_step_of_replay (n := 9) (by decide)
    cases k with
    | report hreport => exact ⟨s, t, h, hretired, hreport, htold⟩

end HealthWatch.Supervisor
