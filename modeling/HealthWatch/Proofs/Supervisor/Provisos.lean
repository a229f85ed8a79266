import HealthWatch.Proofs.Supervisor.Calls

/-!
# What passes keep if the calls within them fit

Some properties survive the passes of an event only as long as the checks of the watches that are
begun in them call for nothing that breaks the property. What such calls have to be like depends on
the state in which they are made (`CallsFit`). A property that each part of a pass keeps under this
proviso is kept by whole requests if all calls fit that are made within them
(`KeptProvided.refresh`), and so are those that scores lead to (`KeptProvided.consult`). The calls
within an event are those that `Asks` tells of, in states in which passes are under way
(`callsFit_of_asks`).
-/

set_option autoImplicit false

namespace HealthWatch.Supervisor

variable {σ : Type} [Strategy σ]

/-! ## The calls of a check -/

/-- When the check of a watch on this endpoint is begun, each of its calls is made in a state that
it fits. -/
def CallsFit (Fits : Supervisor σ → Call → Prop) (s : Supervisor σ) (e : Endpoint) : Prop :=
  ∀ done call rest, s.terms.greeting (s.watches.map Watch.origin) e = done ++ call :: rest →
    Fits (done.foldl interject (s.addWatch e)) call

omit [Strategy σ] in
/-- A fold keeps a property if each step does from where it is made. -/
theorem foldl_keeps {α : Type} {f : Supervisor σ → α → Supervisor σ} {P : Supervisor σ → Prop}
    {l : List α} {s : Supervisor σ}
    (hf : ∀ before a after, l = before ++ a :: after → P (before.foldl f s) →
      P (f (before.foldl f s) a)) (hs : P s) : P (l.foldl f s) := by
  induction l generalizing s with
  | nil => exact hs
  | cons a l ih =>
    have hfirst : P (f s a) := hf [] a l rfl hs
    exact ih (fun before b after heq => hf (a :: before) b after (by rw [heq]; rfl)) hfirst

/-- What every fitting call keeps is kept by the calls of a check that all fit. -/
theorem CallsFit.keeps {Fits : Supervisor σ → Call → Prop} {P : Supervisor σ → Prop}
    {s : Supervisor σ} {e : Endpoint} (h : s.CallsFit Fits e)
    (hcall : ∀ t call, Fits t call → P t → P (t.interject call)) (hs : P (s.addWatch e)) :
    P ((s.terms.greeting (s.watches.map Watch.origin) e).foldl interject (s.addWatch e)) :=
  foldl_keeps (fun done call rest heq ht => hcall _ call (h done call rest heq) ht) hs

/-- The passes that come before a watch change nothing that only the operations change. -/
theorem Begins.steady {s t : Supervisor σ} {e : Endpoint} (h : Begins s t e) : Steady s t := by
  induction h with
  | @now s _ before _ _ _ _ _ ht _ =>
    have hstart : Steady s
        ((s.setRequested false).releaseUnchosen (Strategy.selected s.strategy)) :=
      ⟨rfl, rfl, rfl, rfl, rfl, rfl, rfl⟩
    rw [ht]
    exact hstart.trans (Steady.foldl Steady.ensureWatch before _)
  | @later s _ _ _ _ _ ih =>
    have hstart : Steady s (s.setRequested false) := ⟨rfl, rfl, rfl, rfl, rfl, rfl, rfl⟩
    exact (hstart.trans (Steady.passOnce _)).trans ih

/-- A watch is begun on the same terms, while passes are under way. -/
theorem BeginsAt.underWay {s t : Supervisor σ} {event : Event} {e : Endpoint}
    (h : BeginsAt s event t e) : t.terms = s.terms ∧ t.refreshing = true := by
  cases h with
  | offer h => exact ⟨h.2.steady.terms, h.2.steady.refreshing⟩
  | report _ h =>
    exact ⟨h.2.2.steady.terms.trans (Steady.enterScore ..).terms, h.2.2.steady.refreshing⟩
  | retire _ _ h =>
    exact ⟨h.2.2.steady.terms.trans (Steady.enterScore ..).terms, h.2.2.steady.refreshing⟩

/-- If all calls fit that are made at an event while passes are under way, then those of the checks
do that are begun at it. -/
theorem callsFit_of_asks {Fits : Supervisor σ → Call → Prop} {s : Supervisor σ} {event : Event}
    (h : ∀ t call, Asks s event t call → t.refreshing = true → Fits t call) {t : Supervisor σ}
    {e : Endpoint} (hbegins : BeginsAt s event t e) : t.CallsFit Fits e := by
  intro done call rest hcalls
  refine h _ call (Asks.check hbegins hcalls) ?_
  exact (Steady.foldl Steady.interject done (t.addWatch e)).refreshing.trans hbegins.underWay.2

/-! ## Passes and requests -/

/-- A property of the state that each part of a pass keeps, provided that the calls within it
fit. -/
structure KeptProvided (Fits : Supervisor σ → Call → Prop) (P : Supervisor σ → Prop) : Prop where
  setRequested : ∀ s due, P s → P (s.setRequested due)
  setRefreshing : ∀ s underWay, P s → P (s.setRefreshing underWay)
  beginOnce : ∀ s e, s.CallsFit Fits e → P s → P (s.beginOnce e)
  releaseUnchosen : ∀ s chosen, P s → P (s.releaseUnchosen chosen)
  noteChecked : ∀ s, P s → P s.noteChecked

namespace KeptProvided

variable {Fits : Supervisor σ → Call → Prop} {P : Supervisor σ → Prop} {s t : Supervisor σ}

/-- A pass keeps what holds once it has let go of the watches whose endpoints it has not chosen. -/
theorem passOnce (h : KeptProvided Fits P) (hdue : s.requested = true) (hopen : s.closing = false)
    (hfits : ∀ u e, Begins s u e → u.CallsFit Fits e)
    (hs : P (s.releaseUnchosen (Strategy.selected s.strategy))) :
    P (s.setRequested false).passOnce := by
  have hstart : P ((s.setRequested false).releaseUnchosen (Strategy.selected s.strategy)) :=
    h.setRequested _ false hs
  refine h.noteChecked _ (foldl_keeps (fun before e after hchosen hu => ?_) hstart)
  unfold ensureWatch
  split
  · exact hu
  · rename_i hfree
    exact h.beginOnce _ e (hfits _ e (.now hdue hopen hchosen rfl (by simpa using hfree))) hu

/-- What a pass keeps under the proviso, any number of passes keep, if the calls within all of them
fit. -/
theorem passesWithin (h : KeptProvided Fits P) {n : Nat} (ht : s.passesWithin n = some t)
    (hfits : ∀ u e, Begins s u e → u.CallsFit Fits e) (hs : P s) : P t := by
  induction n generalizing s with
  | zero => simp [Supervisor.passesWithin] at ht
  | succ n ih =>
    simp only [Supervisor.passesWithin] at ht
    split at ht
    · rename_i hdue
      split at ht
      · cases ht
        exact h.setRequested _ _ hs
      · rename_i hopen
        have hopen : s.closing = false := by simpa using hopen
        have hpass := h.passOnce hdue hopen hfits (h.releaseUnchosen _ _ hs)
        exact ih ht (fun u e hlater => hfits u e (.later hdue hopen hlater)) hpass
    · cases ht
      exact hs

/-- A request keeps what holds once the watches on endpoints that are not selected are let go, which
is the first thing that is done at it. -/
theorem refresh (h : KeptProvided Fits P) (hrest : s.refreshing = false) (ht : s.refresh = some t)
    (hfits : ∀ u e, s.BeginsAtRequest u e → u.CallsFit Fits e) (hclosing : s.closing = true → P s)
    (hs : P (s.releaseUnchosen (Strategy.selected s.strategy))) : P t := by
  cases hopen : s.closing with
  | true =>
    rw [refresh_of_closing hopen] at ht
    cases ht
    exact h.setRequested _ _ (hclosing hopen)
  | false =>
    obtain ⟨n, u, hn, rfl⟩ := (refresh_eq_some_iff hrest hopen).mp ht
    cases n with
    | zero => cases hn
    | succ n =>
      let start := (s.setRequested true).setRefreshing true
      have hbegins (v : Supervisor σ) (e : Endpoint) (hv : Begins start v e) : v.CallsFit Fits e :=
        hfits v e ⟨hopen, hv⟩
      have hstart : P (start.releaseUnchosen (Strategy.selected start.strategy)) :=
        h.setRefreshing _ true (h.setRequested _ true hs)
      have hdue : start.requested = true := rfl
      have hopen : start.closing = false := hopen
      -- The first pass begins by letting go of the unselected, and the property is asked for after
      -- that, so the first pass is taken apart from the others.
      have hfirst : start.passesWithin (n + 1) =
          (start.setRequested false).passOnce.passesWithin n := by
        simp only [Supervisor.passesWithin, hdue, hopen, if_true, Bool.false_eq_true, if_false]
      have hn := hfirst.symm.trans hn
      refine h.setRefreshing _ false (h.passesWithin hn (fun v e hv => ?_)
        (h.passOnce hdue hopen hbegins hstart))
      exact hbegins v e (.later hdue hopen hv)

/-- The passes that a score leads to keep what holds once it is entered. -/
theorem consult (h : KeptProvided Fits P)
    (hjudge : ∀ u e score, P u → P (u.setStrategy (Strategy.judge u.strategy e score).1))
    (hrest : s.refreshing = false) {w : Watch} {score : Float} {final : Bool}
    (ht : (s.enterScore w score final).consult w.origin score = some t)
    (hfits : ∀ u e, s.BeginsAtScore w score final u e → u.CallsFit Fits e)
    (hs : P (s.enterScore w score final)) : P t := by
  have hheard := hjudge _ w.origin score hs
  have hidle := (Steady.enterScore s w score final).refreshing.trans hrest
  rcases consult_cases ht with ⟨-, rfl⟩ | ⟨hmoved, ht⟩
  · exact hheard
  · exact h.refresh (by exact hidle) ht (fun u e hu => hfits u e ⟨hmoved, hu⟩) (fun _ => hheard)
      (h.releaseUnchosen _ _ hheard)

end KeptProvided

end HealthWatch.Supervisor
