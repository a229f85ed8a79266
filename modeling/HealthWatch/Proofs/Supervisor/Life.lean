import HealthWatch.Proofs.Run
import HealthWatch.Proofs.Supervisor.Keeping

/-!
# The life of a supervisor

What can happen to a supervisor, in any order: listeners are added, the source has new candidates,
watches report, watches that were let go come to their end, the start is finished, and the
supervisor is closed. A `Run` is a sequence of such events from one state to another. Between two
events no call is in progress; what calls do in the middle of a call is up to `Terms.greeting`.

No event takes from the outbox, so in a run it holds everything that was ever left there.
`Run.keeps` is the induction that every property of reachable states goes through.
-/

set_option autoImplicit false

namespace HealthWatch.Supervisor

/-- Something that happens to a supervisor. -/
inductive Event where
  | listen (listener : Listener)
  | offer (candidates : List Endpoint)
  | report (watch : Nat) (score : Float)
  /-- The check of a watch that was let go has stopped. -/
  | retire (watch : Nat)
  /-- The start is over. -/
  | start
  | beginClose
  | finishClose
  | enterJob (watch : Nat)
  | releaseJob (watch job : Nat)

variable {σ : Type} [Strategy σ]

/-- One event and the states before and after it. Only a watch that is not in force can come to its
end, the start is over once, and closing begins once. -/
inductive Step (s : Supervisor σ) : Event → Supervisor σ → Prop where
  | listen (listener : Listener) : Step s (.listen listener) (s.subscribe listener)
  | offer {candidates : List Endpoint} {t : Supervisor σ} (h : s.offer candidates = some t) :
      Step s (.offer candidates) t
  | report {i : Nat} {score : Float} {t : Supervisor σ} (h : s.report i score = some t) :
      Step s (.report i score) t
  | retire {i : Nat} {t : Supervisor σ} (hfree : i ∉ s.barrier) (h : s.retire i = some t) :
      Step s (.retire i) t
  | start (h : s.started = false) : Step s .start s.finishStartup
  | beginClose (h : s.closing = false) : Step s .beginClose s.beginClose.2
  | finishClose (h : s.closing = true) : Step s .finishClose s.finishClose
  | enterJob {i id : Nat} {t : Supervisor σ} (h : s.enterJob i = some (id, t)) :
      Step s (.enterJob i) t
  | releaseJob (i id : Nat) : Step s (.releaseJob i id) (s.releaseJob i id)

/-- A sequence of events, the latest last, from one state to another. -/
abbrev Run (s : Supervisor σ) : List Event → Supervisor σ → Prop :=
  HealthWatch.Run Step s

/-! ## No passes between events -/

/-- A watch that is retired already has no second end, and one that is not there has none. -/
theorem retire_cases {s t : Supervisor σ} {i : Nat} (h : s.retire i = some t) :
    (t = s ∧ ∀ w, s.watches[i]? = some w → w.retired = true) ∨
      ∃ w, s.watches[i]? = some w ∧ w.retired = false ∧
        (s.modifyWatch i Watch.retire).deliver i 0.0 true = some t := by
  unfold retire at h
  cases hw : s.watches[i]? with
  | none =>
    simp only [hw] at h
    exact Or.inl ⟨(Option.some.inj h).symm, nofun⟩
  | some w =>
    simp only [hw] at h
    cases hretired : w.retired with
    | true =>
      rw [hretired] at h
      refine Or.inl ⟨(Option.some.inj h).symm, ?_⟩
      intro v hv
      rw [← Option.some.inj hv]
      exact hretired
    | false =>
      rw [hretired] at h
      exact Or.inr ⟨w, rfl, hretired, h⟩

/-- The end of a watch is a score of zero, after its roster is closed. -/
theorem retire_eq_some {s t : Supervisor σ} {i : Nat} (h : s.retire i = some t) :
    t = s ∨ ∃ w, s.watches[i]? = some w ∧ w.retired = false ∧
      (s.modifyWatch i Watch.retire).deliver i 0.0 true = some t :=
  (retire_cases h).imp And.left id

omit [Strategy σ] in
/-- A job that is entered changes its watch only, which is not retired, and of it the jobs only. -/
theorem eq_modifyWatch_of_enterJob {s t : Supervisor σ} {i id : Nat}
    (h : s.enterJob i = some (id, t)) :
    ∃ f : Watch → Watch, t = s.modifyWatch i f ∧
      (∀ w, s.watches[i]? = some w → (f w).origin = w.origin) ∧
      (∀ w, s.watches[i]? = some w → (f w).retired = w.retired) ∧
      (∀ w, s.watches[i]? = some w → w.retired = false) ∧
      ∀ w, s.watches[i]? = some w → (f w).reported = w.reported := by
  unfold enterJob at h
  obtain ⟨w, hw, h⟩ := Option.bind_eq_some_iff.mp h
  obtain ⟨⟨number, roster⟩, henter, h⟩ := Option.bind_eq_some_iff.mp h
  have hpair := Option.some.inj h
  have hopen : w.retired = false ∧ roster.closed = w.retired := by
    obtain ⟨hopen, -, rfl⟩ := Roster.enter_eq_some_iff.mp henter
    exact ⟨hopen, rfl⟩
  have hsame (v : Watch) (hv : s.watches[i]? = some v) : w = v := Option.some.inj (hw.symm.trans hv)
  refine ⟨_, (congrArg Prod.snd hpair).symm, fun _ _ => rfl, ?_, ?_, fun _ _ => rfl⟩
  · intro v hv
    obtain rfl := hsame v hv
    exact hopen.2
  · intro v hv
    obtain rfl := hsame v hv
    exact hopen.1

/-- Only the start, the beginning of the close and its end change what calls leave as it is. -/
theorem Step.steady_cases {s t : Supervisor σ} {event : Event} (k : Step s event t)
    (hrest : s.refreshing = false) :
    Steady s t ∨ (event = .start ∧ t = s.finishStartup) ∨
      (event = .beginClose ∧ s.closing = false ∧ t = s.beginClose.2) ∨
      (event = .finishClose ∧ s.closing = true ∧ t = s.finishClose) := by
  have hmodify (i : Nat) (f : Watch → Watch) : Steady s (s.modifyWatch i f) :=
    ⟨rfl, rfl, rfl, rfl, rfl, rfl, rfl⟩
  cases k with
  | listen listener => exact Or.inl ⟨rfl, rfl, rfl, rfl, rfl, rfl, rfl⟩
  | @offer candidates _ h =>
    obtain ⟨u, hu, rfl⟩ := offer_eq_some_iff.mp h
    have hadopt : Steady s (s.adopt candidates) := ⟨rfl, rfl, rfl, rfl, rfl, rfl, rfl⟩
    have hafter := Steady.refresh (by exact hrest) hu
    exact Or.inl ((hadopt.trans hafter).trans (Steady.republishIf u _))
  | report h => exact Or.inl (Steady.deliver hrest h)
  | @retire i _ _ h =>
    obtain rfl | ⟨w, -, -, h⟩ := retire_eq_some h
    · exact Or.inl (Steady.refl _)
    · have hafter := Steady.deliver (by exact hrest) h
      exact Or.inl ((hmodify i Watch.retire).trans hafter)
  | start _ => exact Or.inr (Or.inl ⟨rfl, rfl⟩)
  | beginClose h => exact Or.inr (Or.inr (Or.inl ⟨rfl, h, rfl⟩))
  | finishClose h => exact Or.inr (Or.inr (Or.inr ⟨rfl, h, rfl⟩))
  | @enterJob i _ _ h =>
    obtain ⟨f, rfl, -⟩ := eq_modifyWatch_of_enterJob h
    exact Or.inl (hmodify i f)
  | releaseJob i id => exact Or.inl (hmodify i _)

/-- Between two events no passes are under way. -/
theorem Step.refreshing {s t : Supervisor σ} {event : Event} (k : Step s event t)
    (hrest : s.refreshing = false) : t.refreshing = false := by
  rcases k.steady_cases hrest with hsteady | ⟨-, rfl⟩ | ⟨-, -, rfl⟩ | ⟨-, -, rfl⟩
  · exact hsteady.refreshing.trans hrest
  · exact (Steady.republish _).refreshing.trans hrest
  · exact hrest
  · exact hrest

/-- A property that holds at first and that every event keeps, given that no passes are under way,
holds throughout a life. -/
theorem Run.keeps_at_rest {P : Supervisor σ → Prop}
    (hstep : ∀ t event u, P t → t.refreshing = false → Step t event u → P u) {terms : Terms}
    {strategy : σ} {events : List Event} {s : Supervisor σ}
    (h : Run (fresh terms strategy) events s) (hs : P (fresh terms strategy)) :
    P s ∧ s.refreshing = false :=
  h.keeps (P := fun t => P t ∧ t.refreshing = false)
    (fun t event u ht k => ⟨hstep t event u ht.1 ht.2 k, k.refreshing ht.2⟩) ⟨hs, rfl⟩

/-- In no state of a run are passes under way. -/
theorem Run.refreshing {terms : Terms} {strategy : σ} {events : List Event} {s : Supervisor σ}
    (h : Run (fresh terms strategy) events s) : s.refreshing = false :=
  h.keeps (fun _ _ _ hrest k => k.refreshing hrest) rfl

/-! ## After the close has begun -/

/-- Once the close has begun no event begins a watch, puts one in force or lets one go. -/
theorem Step.unmoved_of_closing {s t : Supervisor σ} {event : Event} (k : Step s event t)
    (hclosing : s.closing = true) : Unmoved s t := by
  cases k with
  | listen listener => exact ⟨rfl, rfl, rfl⟩
  | @offer candidates _ h =>
    obtain ⟨u, hu, rfl⟩ := offer_eq_some_iff.mp h
    have hadopt : (s.adopt candidates).closing = true := hclosing
    rw [refresh_of_closing hadopt] at hu
    cases hu
    have hasked : Unmoved s ((s.adopt candidates).setRequested true) := ⟨rfl, rfl, rfl⟩
    exact hasked.trans (unmoved_republishIf _ _)
  | report h => exact (keptByReports_unmoved s).deliver_of_closing hclosing h (Unmoved.refl s)
  | @retire i _ _ h =>
    obtain rfl | ⟨w, -, -, h⟩ := retire_eq_some h
    · exact Unmoved.refl _
    · have hretired : Unmoved s (s.modifyWatch i Watch.retire) :=
        unmoved_modifyWatch s fun _ _ => rfl
      exact (keptByReports_unmoved s).deliver_of_closing (by exact hclosing) h hretired
  | start h =>
    have hstarted : Unmoved s { s with started := true } := ⟨rfl, rfl, rfl⟩
    exact hstarted.trans (unmoved_republishIf _ true)
  | beginClose hopen =>
    rw [hclosing] at hopen
    cases hopen
  | finishClose h => exact ⟨rfl, rfl, rfl⟩
  | enterJob h =>
    obtain ⟨f, rfl, horigin, -⟩ := eq_modifyWatch_of_enterJob h
    exact unmoved_modifyWatch s horigin
  | releaseJob i id => exact unmoved_modifyWatch s fun _ _ => rfl

/-- An event begins the close, or leaves whether it has begun. -/
theorem Step.closing_cases {s t : Supervisor σ} {event : Event} (k : Step s event t)
    (hrest : s.refreshing = false) :
    t.closing = s.closing ∨ (event = .beginClose ∧ t = s.beginClose.2) := by
  rcases k.steady_cases hrest with hsteady | ⟨-, rfl⟩ | ⟨rfl, -, rfl⟩ | ⟨-, -, rfl⟩
  · exact Or.inl hsteady.closing
  · exact Or.inl (Steady.republish _).closing
  · exact Or.inr ⟨rfl, rfl⟩
  · exact Or.inl rfl

/-- An event ends the close, or leaves whether it is over. -/
theorem Step.closed_cases {s t : Supervisor σ} {event : Event} (k : Step s event t)
    (hrest : s.refreshing = false) : t.closed = s.closed ∨ event = .finishClose := by
  rcases k.steady_cases hrest with hsteady | ⟨-, rfl⟩ | ⟨-, -, rfl⟩ | ⟨rfl, -, -⟩
  · exact Or.inl hsteady.closed
  · exact Or.inl (Steady.republish _).closed
  · exact Or.inl rfl
  · exact Or.inr rfl

/-- Once the close has begun the watches in force stay the same, and none is begun or let go. -/
theorem Run.unmoved_of_closing {s t : Supervisor σ} {events : List Event} (h : Run s events t)
    (hrest : s.refreshing = false) (hclosing : s.closing = true) :
    Unmoved s t ∧ t.closing = true := by
  have hall : (Unmoved s t ∧ t.closing = true) ∧ t.refreshing = false := by
    refine h.keeps (P := fun u => (Unmoved s u ∧ u.closing = true) ∧ u.refreshing = false) ?_
      ⟨⟨Unmoved.refl s, hclosing⟩, hrest⟩
    rintro u event v ⟨⟨hsame, hstill⟩, hidle⟩ k
    refine ⟨⟨hsame.trans (k.unmoved_of_closing hstill), ?_⟩, k.refreshing hidle⟩
    rcases k.closing_cases hidle with hkept | ⟨-, rfl⟩
    · exact hkept.trans hstill
    · rfl
  exact hall.1

/-- No watch is in force once the close has begun. -/
theorem Run.current_of_closing {terms : Terms} {strategy : σ} {events : List Event}
    {s : Supervisor σ} (h : Run (fresh terms strategy) events s) (hclosing : s.closing = true) :
    s.current = [] := by
  refine (h.keeps_at_rest (P := fun t => t.closing = true → t.current = []) ?_ ?_).1 hclosing
  · intro t event u ht hrest k hu
    rcases k.closing_cases hrest with hsame | ⟨-, rfl⟩
    · have hold := hsame.symm.trans hu
      exact (k.unmoved_of_closing hold).current.trans (ht hold)
    · rfl
  · intro hfresh
    cases hfresh

end HealthWatch.Supervisor
