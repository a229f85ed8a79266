import HealthWatch.Proofs.Supervisor.Passes

/-!
# What operations keep

Between two calls no passes are under way, and an operation is some changes at once and then the
passes that these ask for: `deliver_cases`, `consult_cases` and `offer_eq_some_iff` take the
operations apart. A property that the parts of a pass keep is kept by whole requests
(`KeptByPasses.refresh`), and one that the parts of taking in a score keep as well is kept by every
score (`KeptByPasses.deliver`).
-/

set_option autoImplicit false

namespace HealthWatch

/-- The watch that an effect lets go, if it lets go of one. -/
def Effect.released? : Effect → Option Nat
  | .released watch => some watch
  | _ => none

namespace Supervisor

variable {σ : Type} [Strategy σ]

/-! ## Operations while no passes are under way -/

/-- What taking in a score comes to: nothing where there is no such watch, and else the score is
entered and heard, unless the supervisor is gone, and the watch is marked. -/
theorem deliver_cases {s t : Supervisor σ} {i : Nat} {score : Float} {final : Bool}
    (h : s.deliver i score final = some t) :
    (s.watches[i]? = none ∧ t = s) ∨
      ∃ w u, s.watches[i]? = some w ∧ t = u.modifyWatch i Watch.markReported ∧
        ((s.abandoned = true ∧ u = s) ∨
          (s.abandoned = false ∧
            (s.enterScore w score final).consult w.origin score = some u)) := by
  rw [deliver.eq_1] at h
  cases hw : s.watches[i]? with
  | none =>
    simp only [hw] at h
    exact Or.inl ⟨rfl, (Option.some.inj h).symm⟩
  | some w =>
    simp only [hw] at h
    refine Or.inr ⟨w, ?_⟩
    cases hgone : s.abandoned with
    | true =>
      rw [hgone] at h
      exact ⟨s, rfl, (Option.some.inj h).symm, Or.inl ⟨rfl, rfl⟩⟩
    | false =>
      rw [hgone] at h
      obtain ⟨u, hu, ht⟩ := Option.bind_eq_some_iff.mp h
      exact ⟨u, rfl, (Option.some.inj ht).symm, Or.inr ⟨rfl, hu⟩⟩

/-- A score that the strategy has heard is followed by passes if the strategy asks for them. -/
theorem consult_cases {s t : Supervisor σ} {e : Endpoint} {score : Float}
    (h : s.consult e score = some t) :
    ((Strategy.judge s.strategy e score).2 = false ∧
        t = s.setStrategy (Strategy.judge s.strategy e score).1) ∨
      ((Strategy.judge s.strategy e score).2 = true ∧
        (s.setStrategy (Strategy.judge s.strategy e score).1).refresh = some t) := by
  rw [consult.eq_1] at h
  split at h
  · rename_i hmoved
    exact Or.inr ⟨hmoved, h⟩
  · rename_i hstill
    exact Or.inl ⟨by simpa using hstill, (Option.some.inj h).symm⟩

/-- New candidates are adopted, passes follow, and once the start is over the healthy ones are
published. -/
theorem offer_eq_some_iff {s t : Supervisor σ} {candidates : List Endpoint} :
    s.offer candidates = some t ↔
      ∃ u, (s.adopt candidates).refresh = some u ∧ u.republishIf u.started = t := by
  rw [offer.eq_1]
  constructor
  · intro h
    obtain ⟨u, hu, ht⟩ := Option.bind_eq_some_iff.mp h
    exact ⟨u, hu, Option.some.inj ht⟩
  · rintro ⟨u, hu, rfl⟩
    exact Option.bind_eq_some_iff.mpr ⟨u, hu, rfl⟩

/-- A request with all its passes leaves alone what only the operations change. -/
theorem Steady.refresh {s t : Supervisor σ} (hrest : s.refreshing = false)
    (ht : s.refresh = some t) : Steady s t := by
  cases hclosing : s.closing with
  | true =>
    rw [refresh_of_closing hclosing] at ht
    cases ht
    exact ⟨rfl, rfl, rfl, rfl, rfl, rfl, rfl⟩
  | false =>
    obtain ⟨n, u, hn, rfl⟩ := (refresh_eq_some_iff hrest hclosing).mp ht
    -- the passes begin and end with the mark that they are under way
    have hpasses := Steady.passesWithin hn
    exact ⟨hpasses.terms, hrest.symm, hpasses.started, hpasses.closing, hpasses.closed,
      hpasses.abandoned, hpasses.feedClosed⟩

/-- A score with all its passes leaves alone what only the operations change. -/
theorem Steady.deliver {s t : Supervisor σ} (hrest : s.refreshing = false) {i : Nat}
    {score : Float} {final : Bool} (ht : s.deliver i score final = some t) : Steady s t := by
  have hmark (u : Supervisor σ) : Steady u (u.modifyWatch i Watch.markReported) :=
    ⟨rfl, rfl, rfl, rfl, rfl, rfl, rfl⟩
  rcases deliver_cases ht with ⟨-, rfl⟩ | ⟨w, u, -, rfl, ⟨-, rfl⟩ | ⟨-, hu⟩⟩
  · exact Steady.refl _
  · exact hmark _
  · have hentered := Steady.enterScore s w score final
    have hheard : Steady (s.enterScore w score final) u := by
      rcases consult_cases hu with ⟨-, rfl⟩ | ⟨-, hu⟩
      · exact ⟨rfl, rfl, rfl, rfl, rfl, rfl, rfl⟩
      · have hrest' := hentered.refreshing.trans hrest
        have hafter := Steady.refresh (by exact hrest') hu
        exact ⟨hafter.terms, hafter.refreshing, hafter.started, hafter.closing, hafter.closed,
          hafter.abandoned, hafter.feedClosed⟩
    exact (hentered.trans hheard).trans (hmark u)

/-! ## What calls and passes keep

What each part of taking in a score keeps, a call keeps while passes are under way. What each part
of a pass keeps, passes and requests keep, and with both so do the operations that ask for passes.
-/

/-- A property of the state that each part of taking in a score keeps. -/
structure KeptByReports (P : Supervisor σ → Prop) : Prop where
  enterScore : ∀ s w score final, P s → P (s.enterScore w score final)
  judge : ∀ s e score, P s → P (s.setStrategy (Strategy.judge s.strategy e score).1)
  markReported : ∀ s i, P s → P (s.modifyWatch i Watch.markReported)
  setRequested : ∀ s due, P s → P (s.setRequested due)

/-- A property of the state that each part of a pass keeps. -/
structure KeptByPasses (P : Supervisor σ → Prop) : Prop where
  setRequested : ∀ s due, P s → P (s.setRequested due)
  setRefreshing : ∀ s underWay, P s → P (s.setRefreshing underWay)
  beginOnce : ∀ s e, s.watching e = false → P s → P (s.beginOnce e)
  releaseUnchosen : ∀ s chosen, P s → P (s.releaseUnchosen chosen)
  noteChecked : ∀ s, P s → P s.noteChecked

variable {P : Supervisor σ → Prop}

namespace KeptByReports

/-- What the parts of taking in a score keep, a report within a pass keeps. -/
theorem absorb (h : KeptByReports P) {s : Supervisor σ} (hs : P s) (i : Nat) (score : Float)
    (final : Bool) : P (s.absorb i score final) := by
  unfold Supervisor.absorb
  split
  · exact hs
  · rename_i w _
    apply h.markReported
    split
    · exact hs
    · have hentered := h.enterScore s w score final hs
      exact h.setRequested _ _ (h.judge _ w.origin score hentered)

/-- What scores and new candidates keep, a call within a pass keeps. -/
theorem interject (h : KeptByReports P) (hoffer : ∀ s candidates, P s → P (s.takeIn candidates))
    {s : Supervisor σ} (hs : P s) (call : Call) : P (s.interject call) := by
  cases call with
  | offer candidates => exact hoffer s candidates hs
  | report i score => exact h.absorb hs i score false

end KeptByReports

/-- What calls, the new watch and its coming into force keep, beginning a watch keeps. -/
theorem beginOnce_keeps (hcall : ∀ s call, P s → P (s.interject call))
    (hadd : ∀ s e, P s → P (s.addWatch e)) (henlist : ∀ s e i, P s → P (s.enlist e i))
    {s : Supervisor σ} (hs : P s) (e : Endpoint) : P (s.beginOnce e) :=
  henlist _ _ _ (List.foldlRecOn _ _ (hadd s e hs) fun t ht call _ => hcall t call ht)

namespace KeptByPasses

/-- What beginning a watch keeps, beginning some of them keeps. -/
theorem ensureWatches (h : KeptByPasses P) {s : Supervisor σ} (hs : P s) (l : List Endpoint) :
    P (l.foldl ensureWatch s) := by
  refine List.foldlRecOn l ensureWatch hs fun t ht e _ => ?_
  unfold ensureWatch
  split
  · exact ht
  · rename_i hfree
    exact h.beginOnce t e (by simpa using hfree) ht

/-- What each part of a pass keeps, a pass keeps. -/
theorem passOnce (h : KeptByPasses P) {s : Supervisor σ} (hs : P s) : P s.passOnce :=
  h.noteChecked _ (h.ensureWatches (h.releaseUnchosen s _ hs) _)

/-- What a pass keeps, any number of passes keep. -/
theorem passesWithin (h : KeptByPasses P) {n : Nat} {s t : Supervisor σ}
    (ht : s.passesWithin n = some t) (hs : P s) : P t := by
  induction n generalizing s with
  | zero => simp [Supervisor.passesWithin] at ht
  | succ n ih =>
    simp only [Supervisor.passesWithin] at ht
    split at ht
    · split at ht
      · cases ht
        exact h.setRequested _ _ hs
      · exact ih ht (h.passOnce (h.setRequested _ _ hs))
    · cases ht
      exact hs

/-- Passes that are due end with a pass within which no other was asked for. -/
theorem passesWithin_ends (h : KeptByPasses P) {n : Nat} {s t : Supervisor σ}
    (hdue : s.requested = true) (hopen : s.closing = false) (ht : s.passesWithin n = some t)
    (hs : P s) : ∃ u, P u ∧ u.passOnce.requested = false ∧ t = u.passOnce := by
  induction n generalizing s with
  | zero => simp [Supervisor.passesWithin] at ht
  | succ n ih =>
    simp only [Supervisor.passesWithin, hdue, hopen, if_true, Bool.false_eq_true, if_false] at ht
    have hstart := h.setRequested s false hs
    cases hagain : (s.setRequested false).passOnce.requested with
    | true =>
      have hstill := (Steady.passOnce (s.setRequested false)).closing.trans hopen
      exact ih hagain hstill ht (h.passOnce hstart)
    | false =>
      refine ⟨s.setRequested false, hstart, hagain, ?_⟩
      cases n with
      | zero => simp [Supervisor.passesWithin] at ht
      | succ n =>
        simp only [Supervisor.passesWithin, hagain, Bool.false_eq_true, if_false] at ht
        exact (Option.some.inj ht).symm

/-- What passes keep, a request with its passes keeps. -/
theorem refresh (h : KeptByPasses P) {s t : Supervisor σ} (hrest : s.refreshing = false)
    (ht : s.refresh = some t) (hs : P s) : P t := by
  cases hclosing : s.closing with
  | true =>
    rw [refresh_of_closing hclosing] at ht
    cases ht
    exact h.setRequested _ _ hs
  | false =>
    obtain ⟨n, u, hn, rfl⟩ := (refresh_eq_some_iff hrest hclosing).mp ht
    exact h.setRefreshing _ _
      (h.passesWithin hn (h.setRefreshing _ _ (h.setRequested _ _ hs)))

/-- A request ends with a pass within which no other was asked for. -/
theorem refresh_ends (h : KeptByPasses P) {s t : Supervisor σ} (hrest : s.refreshing = false)
    (hopen : s.closing = false) (ht : s.refresh = some t) (hs : P s) :
    ∃ u, P u ∧ u.passOnce.requested = false ∧ t = u.passOnce.setRefreshing false := by
  obtain ⟨n, v, hn, rfl⟩ := (refresh_eq_some_iff hrest hopen).mp ht
  have hstart := h.setRefreshing _ true (h.setRequested s true hs)
  obtain ⟨u, hu, hidle, rfl⟩ := h.passesWithin_ends rfl (by exact hopen) hn hstart
  exact ⟨u, hu, hidle, rfl⟩

/-- What passes and the strategy's change by a score keep is kept when the strategy hears a score.
-/
theorem consult (h : KeptByPasses P)
    (hjudge : ∀ s e score, P s → P (s.setStrategy (Strategy.judge s.strategy e score).1))
    {s t : Supervisor σ} (hrest : s.refreshing = false) {e : Endpoint} {score : Float}
    (ht : s.consult e score = some t) (hs : P s) : P t := by
  have hheard := hjudge s e score hs
  rcases consult_cases ht with ⟨-, rfl⟩ | ⟨-, ht⟩
  · exact hheard
  · exact h.refresh (by exact hrest) ht hheard

/-- What the parts of a pass and of taking in a score keep, taking in a score with its passes keeps.
-/
theorem deliver (h : KeptByPasses P) (hr : KeptByReports P) {s t : Supervisor σ}
    (hrest : s.refreshing = false) {i : Nat} {score : Float} {final : Bool}
    (ht : s.deliver i score final = some t) (hs : P s) : P t := by
  rcases deliver_cases ht with ⟨-, rfl⟩ | ⟨w, u, -, rfl, ⟨-, rfl⟩ | ⟨-, hu⟩⟩
  · exact hs
  · exact hr.markReported _ _ hs
  · have hentered := (Steady.enterScore s w score final).refreshing.trans hrest
    exact hr.markReported _ _
      (h.consult hr.judge hentered hu (hr.enterScore s w score final hs))

/-- What passes and publications keep once new candidates are adopted, an offer keeps from there on.
-/
theorem offer (h : KeptByPasses P) (hpublish : ∀ s reason, P s → P (s.republishIf reason))
    {s t : Supervisor σ} (hrest : s.refreshing = false) {candidates : List Endpoint}
    (ht : s.offer candidates = some t) (hs : P (s.adopt candidates)) : P t := by
  obtain ⟨u, hu, rfl⟩ := offer_eq_some_iff.mp ht
  exact hpublish u _ (h.refresh (by exact hrest) hu hs)

end KeptByPasses

/-! ## Watches in force and watches let go -/

section

omit [Strategy σ]

/-- The watches that were let go, in order; the outbox is taken to hold everything that was ever
left there. -/
def released (s : Supervisor σ) : List Nat :=
  s.outbox.filterMap Effect.released?

/-- The same watches are in force, and none was begun or let go. -/
structure Unmoved (s t : Supervisor σ) : Prop where
  current : t.current = s.current
  origins : t.watches.map Watch.origin = s.watches.map Watch.origin
  released : t.released = s.released

/-- Where no watch was begun, there are as many as before. -/
theorem Unmoved.length {s t : Supervisor σ} (h : Unmoved s t) :
    t.watches.length = s.watches.length := by
  have hlength := congrArg List.length h.origins
  rwa [List.length_map, List.length_map] at hlength

/-- Nothing has moved. -/
theorem Unmoved.refl (s : Supervisor σ) : Unmoved s s :=
  ⟨rfl, rfl, rfl⟩

/-- Where nothing moves twice, nothing moves. -/
theorem Unmoved.trans {s t u : Supervisor σ} (h : Unmoved s t) (k : Unmoved t u) : Unmoved s u :=
  ⟨k.current.trans h.current, k.origins.trans h.origins, k.released.trans h.released⟩

/-- A change of a watch that leaves it on its endpoint moves none. -/
theorem unmoved_modifyWatch (s : Supervisor σ) {i : Nat} {f : Watch → Watch}
    (horigin : ∀ w, s.watches[i]? = some w → (f w).origin = w.origin) :
    Unmoved s (s.modifyWatch i f) := by
  refine ⟨rfl, ?_, rfl⟩
  apply List.ext_getElem?
  intro j
  by_cases hij : i = j
  · subst hij
    cases hw : s.watches[i]? with
    | none => simp [modifyWatch, hw]
    | some w => simp [modifyWatch, hw, horigin w hw]
  · simp [modifyWatch, hij]

/-- A publication moves no watch. -/
theorem unmoved_republishIf (s : Supervisor σ) (reason : Bool) :
    Unmoved s (s.republishIf reason) := by
  unfold republishIf republish
  dsimp only
  split
  · split
    · -- a publication lets no watch go
      refine ⟨rfl, rfl, ?_⟩
      simp [Supervisor.released, Effect.released?]
    · exact Unmoved.refl s
  · exact Unmoved.refl s

/-- A score that is entered moves no watch. -/
theorem unmoved_enterScore (s : Supervisor σ) (w : Watch) (score : Float) (final : Bool) :
    Unmoved s (s.enterScore w score final) := by
  have hforget : Unmoved s (s.forget w.origin) := ⟨rfl, rfl, rfl⟩
  have hrecord : Unmoved s (s.record w.origin score) := ⟨rfl, rfl, rfl⟩
  unfold enterScore
  split
  · exact Unmoved.refl s
  · split
    · exact hforget.trans (unmoved_republishIf _ _)
    · exact hrecord.trans (unmoved_republishIf _ _)

end

/-! ## A closing supervisor -/

/-- A score leaves the watches in force, begins none and lets none go. -/
theorem keptByReports_unmoved (s : Supervisor σ) : KeptByReports (Unmoved s) where
  enterScore t w score final h := h.trans (unmoved_enterScore t w score final)
  judge _ _ _ h := ⟨h.current, h.origins, h.released⟩
  markReported t _ h := h.trans (unmoved_modifyWatch t fun _ _ => rfl)
  setRequested _ _ h := ⟨h.current, h.origins, h.released⟩

/-- A closing supervisor makes no passes, so taking in a score keeps what its own parts keep. -/
theorem KeptByReports.deliver_of_closing (hr : KeptByReports P) {s t : Supervisor σ}
    (hclosing : s.closing = true) {i : Nat} {score : Float} {final : Bool}
    (ht : s.deliver i score final = some t) (hs : P s) : P t := by
  rcases deliver_cases ht with ⟨-, rfl⟩ | ⟨w, u, -, rfl, ⟨-, rfl⟩ | ⟨-, hu⟩⟩
  · exact hs
  · exact hr.markReported _ _ hs
  · have hentered := (Steady.enterScore s w score final).closing.trans hclosing
    have hheard := hr.judge _ w.origin score (hr.enterScore s w score final hs)
    apply hr.markReported
    rcases consult_cases hu with ⟨-, rfl⟩ | ⟨-, hu⟩
    · exact hheard
    · rw [refresh_of_closing (by exact hentered)] at hu
      cases hu
      exact hr.setRequested _ true hheard

end Supervisor

end HealthWatch
