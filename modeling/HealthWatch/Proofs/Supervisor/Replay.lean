import HealthWatch.Proofs.Supervisor.Life

/-!
# Replaying a life

A run is a relation, since passes need not come to an end. With a bound on the passes of each
event it becomes a function, `replay`, and what it gives is a run (`run_of_replay`). So a run of
given events can be computed.
-/

set_option autoImplicit false

namespace HealthWatch.Supervisor

variable {σ : Type} [Strategy σ]

/-- A request and its passes, with a bound on these. -/
def refreshWithin (n : Nat) (s : Supervisor σ) : Option (Supervisor σ) :=
  if s.closing then some (s.setRequested true)
  else
    (((s.setRequested true).setRefreshing true).passesWithin n).map fun t => t.setRefreshing false

/-- Takes a score of a watch, with a bound on the passes. -/
def deliverWithin (n : Nat) (s : Supervisor σ) (i : Nat) (score : Float) (final : Bool) :
    Option (Supervisor σ) :=
  match s.watches[i]? with
  | none => some s
  | some w =>
    let entered := s.enterScore w score final
    let judged := Strategy.judge entered.strategy w.origin score
    let heard :=
      if s.abandoned then some s
      else if judged.2 then (entered.setStrategy judged.1).refreshWithin n
      else some (entered.setStrategy judged.1)
    heard.map fun t => t.modifyWatch i Watch.markReported

/-- What happens at an event, with a bound on the passes. -/
def replayEvent (n : Nat) (s : Supervisor σ) : Event → Option (Supervisor σ)
  | .listen listener => some (s.subscribe listener)
  | .offer candidates =>
    ((s.adopt candidates).refreshWithin n).map fun t => t.republishIf t.started
  | .report i score => s.deliverWithin n i score false
  | .retire i =>
    if s.barrier.contains i then none
    else
      match s.watches[i]? with
      | none => some s
      | some w =>
        if w.retired then some s
        else (s.modifyWatch i Watch.retire).deliverWithin n i 0.0 true
  | .start => if s.started then none else some s.finishStartup
  | .beginClose => if s.closing then none else some s.beginClose.2
  | .finishClose => if s.closing then some s.finishClose else none
  | .enterJob i => (s.enterJob i).map Prod.snd
  | .releaseJob i id => some (s.releaseJob i id)

/-- The state after some events, with a bound on the passes of each of them. -/
def replay (n : Nat) (s : Supervisor σ) (events : List Event) : Option (Supervisor σ) :=
  events.foldlM (replayEvent n) s

/-! ## What is replayed happens -/

/-- A request that ends within a bound ends. -/
theorem refresh_of_refreshWithin {n : Nat} {s t : Supervisor σ} (hrest : s.refreshing = false)
    (h : s.refreshWithin n = some t) : s.refresh = some t := by
  unfold refreshWithin at h
  cases hclosing : s.closing with
  | true =>
    rw [hclosing] at h
    rw [refresh_of_closing hclosing]
    exact h
  | false =>
    rw [hclosing] at h
    obtain ⟨u, hu, ht⟩ := Option.map_eq_some_iff.mp h
    exact (refresh_eq_some_iff hrest hclosing).mpr ⟨n, u, hu, ht⟩

/-- A score whose passes end within a bound is taken in. -/
theorem deliver_of_deliverWithin {n : Nat} {s t : Supervisor σ} (hrest : s.refreshing = false)
    {i : Nat} {score : Float} {final : Bool} (h : s.deliverWithin n i score final = some t) :
    s.deliver i score final = some t := by
  rw [deliver.eq_1]
  unfold deliverWithin at h
  cases hw : s.watches[i]? with
  | none =>
    rw [hw] at h
    exact h
  | some w =>
    rw [hw] at h
    obtain ⟨u, hu, ht⟩ := Option.map_eq_some_iff.mp h
    cases hgone : s.abandoned with
    | true =>
      rw [hgone] at hu
      obtain rfl := Option.some.inj hu
      exact congrArg some ht
    | false =>
      rw [hgone] at hu
      have hconsult : (s.enterScore w score final).consult w.origin score = some u := by
        rw [consult.eq_1]
        split
        · rename_i hmoved
          simp only [Bool.false_eq_true, if_false, hmoved, if_true] at hu
          refine refresh_of_refreshWithin ?_ hu
          exact (Steady.enterScore s w score final).refreshing.trans hrest
        · rename_i hstill
          simp only [Bool.false_eq_true, if_false, hstill] at hu
          exact hu
      simp only [Bool.false_eq_true, if_false]
      exact Option.bind_eq_some_iff.mpr ⟨u, hconsult, congrArg some ht⟩

/-- An event that can be replayed happens. -/
theorem step_of_replayEvent {n : Nat} {s t : Supervisor σ} (hrest : s.refreshing = false)
    {event : Event} (h : s.replayEvent n event = some t) : Step s event t := by
  cases event with
  | listen listener =>
    cases h
    exact Step.listen listener
  | offer candidates =>
    obtain ⟨u, hu, rfl⟩ := Option.map_eq_some_iff.mp h
    refine Step.offer (offer_eq_some_iff.mpr ⟨u, refresh_of_refreshWithin ?_ hu, rfl⟩)
    exact hrest
  | report i score => exact Step.report (deliver_of_deliverWithin hrest h)
  | retire i =>
    unfold replayEvent at h
    dsimp only at h
    split at h
    · cases h
    · rename_i hfree
      refine Step.retire (by simpa using hfree) ?_
      unfold retire
      cases hw : s.watches[i]? with
      | none =>
        rw [hw] at h
        exact h
      | some w =>
        rw [hw] at h
        dsimp only at h ⊢
        split at h
        · rename_i hretired
          rw [if_pos hretired]
          exact h
        · rename_i hlive
          rw [if_neg hlive]
          refine deliver_of_deliverWithin ?_ h
          exact hrest
  | start =>
    unfold replayEvent at h
    dsimp only at h
    split at h
    · cases h
    · rename_i hearly
      cases h
      exact Step.start (by simpa using hearly)
  | beginClose =>
    unfold replayEvent at h
    dsimp only at h
    split at h
    · cases h
    · rename_i hopen
      cases h
      exact Step.beginClose (by simpa using hopen)
  | finishClose =>
    unfold replayEvent at h
    dsimp only at h
    split at h
    · rename_i hclosing
      cases h
      exact Step.finishClose hclosing
    · cases h
  | enterJob i =>
    obtain ⟨⟨id, u⟩, hu, rfl⟩ := Option.map_eq_some_iff.mp h
    exact Step.enterJob hu
  | releaseJob i id =>
    cases h
    exact Step.releaseJob i id

/-- What is replayed is a run. -/
theorem run_of_replay {n : Nat} {s t : Supervisor σ} (hrest : s.refreshing = false)
    {events : List Event} (h : s.replay n events = some t) : Run s events t := by
  refine Run.of_foldlM (P := fun u => u.refreshing = false) (fun _ hidle hu => ?_) hrest h
  have hstep := step_of_replayEvent hidle hu
  exact ⟨hstep, hstep.refreshing hidle⟩

/-- A property of what is replayed is one that some run arrives at. -/
theorem exists_run_of_replay {n : Nat} {s : Supervisor σ} (hrest : s.refreshing = false)
    {events : List Event} {P : Supervisor σ → Prop} [DecidablePred P]
    (h : (s.replay n events).any (fun t => P t) = true) : ∃ t, Run s events t ∧ P t := by
  obtain ⟨t, ht, hP⟩ := (Option.any_eq_true _ _).mp h
  exact ⟨t, run_of_replay hrest ht, of_decide_eq_true hP⟩

/-- A property of a replayed offer is one of an offer that is taken. -/
theorem exists_offer_of_replay {n : Nat} {s : Supervisor σ} (hrest : s.refreshing = false)
    {candidates : List Endpoint} {P : Supervisor σ → Prop} [DecidablePred P]
    (h : (s.replayEvent n (.offer candidates)).any (fun t => P t) = true) :
    ∃ t, s.offer candidates = some t ∧ P t := by
  obtain ⟨t, ht, hP⟩ := (Option.any_eq_true _ _).mp h
  cases step_of_replayEvent hrest ht with
  | offer hoffer => exact ⟨t, hoffer, of_decide_eq_true hP⟩

/-- A property of what is replayed and of what the next event makes of it. -/
theorem exists_step_of_replay {n : Nat} {terms : Terms} {strategy : σ} {events : List Event}
    {event : Event} {P : Supervisor σ → Supervisor σ → Prop} [∀ s t, Decidable (P s t)]
    (h : ((fresh terms strategy).replay n events).any
      (fun s => (s.replayEvent n event).any (fun t => P s t)) = true) :
    ∃ s t, Run (fresh terms strategy) events s ∧ Step s event t ∧ P s t := by
  obtain ⟨s, hs, hnext⟩ := (Option.any_eq_true _ _).mp h
  obtain ⟨t, ht, hP⟩ := (Option.any_eq_true _ _).mp hnext
  have hrun : Run (fresh terms strategy) events s := run_of_replay rfl hs
  exact ⟨s, t, hrun, step_of_replayEvent hrun.refreshing ht, of_decide_eq_true hP⟩

end HealthWatch.Supervisor
