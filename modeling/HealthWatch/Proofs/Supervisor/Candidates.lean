import HealthWatch.Proofs.Supervisor.Life

/-!
# Where candidates come from

A supervisor's candidates are those it was offered last. They are offered by its source, and where
no check offers any while its watch is being begun (`Quiet`), by its source only: what is offered
between two events are the candidates from then on (`candidates_of_offer`), and no other event
changes them (`Step.candidates`).
-/

set_option autoImplicit false

namespace HealthWatch.Supervisor

variable {σ : Type} [Strategy σ]

omit [Strategy σ] in
/-- No check offers candidates while its watch is being begun. -/
def Quiet (terms : Terms) : Prop :=
  ∀ before e candidates, Call.offer candidates ∉ terms.greeting before e

omit [Strategy σ] in
/-- Checks that call nothing while they are begun offer no candidates. -/
theorem quiet_of_silent {terms : Terms} (h : terms.greeting = fun _ _ => []) : Quiet terms := by
  intro before e candidates
  rw [h]
  exact List.not_mem_nil

/-- What reports keep, the calls of a check that offers no candidates keep. -/
theorem foldl_interject_keeps {P : Supervisor σ → Prop} {calls : List Call}
    (hcalls : ∀ candidates, Call.offer candidates ∉ calls)
    (hreport : ∀ s i score, P s → P (s.absorb i score false)) {s : Supervisor σ} (hs : P s) :
    P (calls.foldl interject s) := by
  refine List.foldlRecOn calls interject hs fun t ht call hcall => ?_
  cases call with
  | offer candidates => exact absurd hcall (hcalls candidates)
  | report i score => exact hreport t i score ht

/-- Reports leave the terms and the candidates. -/
theorem keptByReports_candidates (terms : Terms) (candidates : List Endpoint) :
    KeptByReports fun s : Supervisor σ => s.terms = terms ∧ s.candidates = candidates where
  enterScore s w score final h := by
    obtain ⟨book, feed, outbox, heq⟩ := enterScore_eq s w score final
    rw [heq]
    exact h
  judge _ _ _ h := h
  markReported _ _ h := h
  setRequested _ _ h := h

/-- Passes leave the terms and the candidates where checks offer none. -/
theorem keptByPasses_candidates {terms : Terms} (hquiet : Quiet terms)
    (candidates : List Endpoint) :
    KeptByPasses fun s : Supervisor σ => s.terms = terms ∧ s.candidates = candidates where
  setRequested _ _ h := h
  setRefreshing _ _ h := h
  beginOnce s e _ h := by
    let P (t : Supervisor σ) := t.terms = terms ∧ t.candidates = candidates
    have hadded : P (s.addWatch e) := h
    have hreport (t : Supervisor σ) (i : Nat) (score : Float) (ht : P t) :
        P (t.absorb i score false) :=
      (keptByReports_candidates terms candidates).absorb ht i score false
    exact foldl_interject_keeps (P := P) (h.1 ▸ hquiet _ _) hreport hadded
  releaseUnchosen _ _ h := h
  noteChecked _ h := h

/-- What is offered between two events are the candidates from then on. -/
theorem candidates_of_offer {s t : Supervisor σ} (hquiet : Quiet s.terms)
    (hrest : s.refreshing = false) {candidates : List Endpoint}
    (h : s.offer candidates = some t) :
    t.terms = s.terms ∧ t.candidates = candidates ∧ t.refreshing = false := by
  have hidle := (Step.offer h).refreshing hrest
  let P (u : Supervisor σ) := u.terms = s.terms ∧ u.candidates = candidates
  have hpublish (u : Supervisor σ) (reason : Bool) (hu : P u) : P (u.republishIf reason) :=
    republishIf_keeps (P := P) (fun _ _ _ hv => hv) hu reason
  obtain ⟨hterms, hcandidates⟩ :=
    (keptByPasses_candidates hquiet candidates).offer hpublish hrest h ⟨rfl, rfl⟩
  exact ⟨hterms, hcandidates, hidle⟩

/-- Only what is offered changes the candidates. -/
theorem Step.candidates {s t : Supervisor σ} {event : Event} (k : Step s event t)
    (hquiet : Quiet s.terms) (hrest : s.refreshing = false)
    (hother : ∀ candidates, event ≠ .offer candidates) :
    t.terms = s.terms ∧ t.candidates = s.candidates := by
  have hkeeps := keptByPasses_candidates (σ := σ) hquiet s.candidates
  have hreports := keptByReports_candidates (σ := σ) s.terms s.candidates
  cases k with
  | @offer candidates _ _ => exact absurd rfl (hother candidates)
  | report h => exact hkeeps.deliver hreports hrest h ⟨rfl, rfl⟩
  | retire _ h =>
    obtain rfl | ⟨w, -, -, h⟩ := retire_eq_some h
    · exact ⟨rfl, rfl⟩
    · exact hkeeps.deliver hreports (by exact hrest) h ⟨rfl, rfl⟩
  | start _ =>
    obtain ⟨feed, outbox, heq⟩ := republish_eq { s with started := true }
    rw [finishStartup, heq]
    exact ⟨rfl, rfl⟩
  | enterJob h =>
    obtain ⟨f, rfl, -⟩ := eq_modifyWatch_of_enterJob h
    exact ⟨rfl, rfl⟩
  | _ => exact ⟨rfl, rfl⟩

end HealthWatch.Supervisor
