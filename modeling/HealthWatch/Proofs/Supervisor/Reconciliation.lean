import HealthWatch.Proofs.Supervisor.Force
import HealthWatch.Proofs.Supervisor.Replay

/-!
# Watches follow the selection

A pass reads the selection once, at its start, and the calls made within it may change the selection
again. But then a request is noted, and another pass follows. So throughout a pass the selection is
the one that the pass began with unless a request is noted (`Awaits`), and the watches in force are
on selected endpoints, on all of those that the pass has dealt with (`Underway`). At its end the
watches are in line with the selection, or another pass is due (`Settled`). Passes go on until none
is due, so between two events the watches are in line (`InLine`), until the close puts all of them
out of force (`Reconciled`).
-/

set_option autoImplicit false

namespace HealthWatch.Supervisor

variable {σ : Type} [Strategy σ]

/-! ## The selection during a pass -/

/-- The selected endpoints are these, unless another pass is due. -/
def Awaits (chosen : List Endpoint) (s : Supervisor σ) : Prop :=
  s.requested = false → ∀ e, e ∈ Strategy.selected s.strategy ↔ e ∈ chosen

section

variable [LawfulStrategy σ] {chosen : List Endpoint}

/-- A score that changes the selection makes a pass due. -/
theorem Awaits.heed {s : Supervisor σ} (h : s.Awaits chosen) (e : Endpoint) (score : Float) :
    (s.heed e score).Awaits chosen := by
  intro hclear f
  obtain ⟨hidle, hstill⟩ : s.requested = false ∧ (Strategy.judge s.strategy e score).2 = false :=
    Bool.or_eq_false_iff.mp hclear
  exact (LawfulStrategy.mem_selected_judge s.strategy e score hstill f).trans (h hidle f)

/-- A report within a pass leaves the selection, or makes a pass due. -/
theorem Awaits.absorb {s : Supervisor σ} (h : s.Awaits chosen) (i : Nat) (score : Float)
    (final : Bool) : (s.absorb i score final).Awaits chosen := by
  unfold Supervisor.absorb
  split
  · exact h
  · rename_i w _
    split
    · exact h
    · have hentered : (s.enterScore w score final).Awaits chosen := by
        obtain ⟨book, feed, outbox, heq⟩ := enterScore_eq s w score final
        rw [heq]
        exact h
      exact hentered.heed w.origin score

omit [LawfulStrategy σ] in
/-- New candidates make a pass due. -/
theorem awaits_takeIn (s : Supervisor σ) (candidates : List Endpoint) :
    (s.takeIn candidates).Awaits chosen := by
  have hdue : ((s.adopt candidates).setRequested true).Awaits chosen := nofun
  exact republishIf_keeps (fun _ _ _ hu => hu) hdue _

/-- A call within a pass leaves the selection, or makes a pass due. -/
theorem Awaits.interject {s : Supervisor σ} (h : s.Awaits chosen) (call : Call) :
    (s.interject call).Awaits chosen := by
  cases call with
  | offer candidates => exact awaits_takeIn s candidates
  | report i score => exact h.absorb i score false

/-- Beginning a watch leaves the selection, or makes a pass due. -/
theorem Awaits.beginOnce {s : Supervisor σ} (h : s.Awaits chosen) (e : Endpoint) :
    (s.beginOnce e).Awaits chosen :=
  beginOnce_keeps (P := Awaits chosen) (fun _ call ht => ht.interject call) (fun _ _ ht => ht)
    (fun _ _ _ ht => ht) h e

end

/-! ## One pass -/

/-- A watch that is begun comes into force on its endpoint behind all others. -/
theorem inForce_beginOnce (s : Supervisor σ) (e : Endpoint) :
    (s.beginOnce e).inForce = s.inForce ++ [e] := by
  rw [beginOnce, inForce_enlist, inForce, current_foldl_interject]
  rfl

/-- Where a pass stands that has dealt with the first ones of the chosen endpoints. -/
structure Underway (chosen done : List Endpoint) (s : Supervisor σ) : Prop where
  within : ∀ e ∈ s.inForce, e ∈ chosen
  reached : ∀ e ∈ done, e ∈ s.inForce
  awaits : s.Awaits chosen

/-- A pass that goes on to the next of the chosen endpoints has dealt with that one as well. -/
theorem Underway.ensureWatch [LawfulStrategy σ] {chosen done : List Endpoint} {s : Supervisor σ}
    (h : s.Underway chosen done) {e : Endpoint} (he : e ∈ chosen) :
    (s.ensureWatch e).Underway chosen (done ++ [e]) := by
  unfold Supervisor.ensureWatch
  split
  · rename_i hon
    have hon : e ∈ s.inForce := by simpa [watching] using hon
    refine ⟨h.within, ?_, h.awaits⟩
    intro f hf
    rcases List.mem_append.mp hf with hf | hf
    · exact h.reached f hf
    · rw [List.mem_singleton.mp hf]
      exact hon
  · refine ⟨?_, ?_, h.awaits.beginOnce e⟩
    · intro f hf
      rw [inForce_beginOnce] at hf
      rcases List.mem_append.mp hf with hf | hf
      · exact h.within f hf
      · rw [List.mem_singleton.mp hf]
        exact he
    · intro f hf
      rw [inForce_beginOnce]
      rcases List.mem_append.mp hf with hf | hf
      · exact List.mem_append_left [e] (h.reached f hf)
      · exact List.mem_append_right s.inForce hf

/-- A pass that goes on to all other chosen endpoints has dealt with them as well. -/
theorem Underway.foldl [LawfulStrategy σ] {chosen done rest : List Endpoint} {s : Supervisor σ}
    (h : s.Underway chosen done) (hrest : ∀ e ∈ rest, e ∈ chosen) :
    (rest.foldl Supervisor.ensureWatch s).Underway chosen (done ++ rest) := by
  induction rest generalizing s done with
  | nil =>
    rw [List.append_nil]
    exact h
  | cons e rest ih =>
    rw [List.foldl_cons, List.append_cons]
    exact ih (h.ensureWatch (hrest e (by simp))) fun f hf => hrest f (List.mem_cons_of_mem e hf)

/-- The watches in force are on the selected endpoints, and these are known. -/
structure InLine (s : Supervisor σ) : Prop where
  noted : s.checked = s.inForce
  followed : ∀ e, e ∈ s.inForce ↔ e ∈ Strategy.selected s.strategy

/-- A pass ends with the watches in line, or another pass is due. -/
theorem inLine_passOnce [LawfulStrategy σ] {s : Supervisor σ}
    (hclear : s.passOnce.requested = false) : s.passOnce.InLine := by
  have hstart : (s.releaseUnchosen (Strategy.selected s.strategy)).Underway
      (Strategy.selected s.strategy) [] := by
    refine ⟨?_, fun e he => absurd he List.not_mem_nil, fun _ _ => Iff.rfl⟩
    intro e he
    rw [inForce_releaseUnchosen] at he
    simpa using (List.mem_filter.mp he).2
  have hend := hstart.foldl (fun (e : Endpoint) (he : e ∈ Strategy.selected s.strategy) => he)
  refine ⟨rfl, fun e => ?_⟩
  constructor
  · intro he
    exact (hend.awaits hclear e).mpr (hend.within e he)
  · intro he
    exact hend.reached e ((hend.awaits hclear e).mp he)

/-! ## All passes -/

/-- A request leaves the watches in line and no pass due. -/
theorem inLine_refresh [LawfulStrategy σ] {s t : Supervisor σ} (hrest : s.refreshing = false)
    (hopen : s.closing = false) (h : s.refresh = some t) : t.requested = false ∧ t.InLine := by
  obtain ⟨u, -, hidle, rfl⟩ :=
    (keptByPasses_moves s).refresh_ends hrest hopen h Relation.ReflTransGen.refl
  have hline := inLine_passOnce hidle
  exact ⟨hidle, hline.noted, hline.followed⟩

/-! ## Every event -/

/-- Until the close no pass is due and the watches are in line; from then on none is in force. -/
structure Reconciled (s : Supervisor σ) : Prop where
  followed : s.closing = false → s.requested = false ∧ s.InLine
  emptied : s.closing = true → s.checked = [] ∧ s.current = []

/-- Watches stay in line while neither they nor the selection change. -/
theorem Reconciled.congr {s t : Supervisor σ} (h : s.Reconciled) (hclosing : t.closing = s.closing)
    (hrequested : t.requested = s.requested) (hchecked : t.checked = s.checked)
    (hcurrent : t.current = s.current) (hstrategy : t.strategy = s.strategy) : t.Reconciled := by
  constructor
  · intro hopen
    obtain ⟨hidle, hline⟩ := h.followed (hclosing ▸ hopen)
    have hinForce : t.inForce = s.inForce := congrArg (List.map Prod.fst) hcurrent
    refine ⟨hrequested.trans hidle, ?_, ?_⟩
    · rw [hchecked, hinForce]
      exact hline.noted
    · rw [hinForce, hstrategy]
      exact hline.followed
  · intro hclosed
    obtain ⟨hnone, hempty⟩ := h.emptied (hclosing ▸ hclosed)
    exact ⟨hchecked.trans hnone, hcurrent.trans hempty⟩

/-- A score that is entered leaves the watches in line. -/
theorem Reconciled.enterScore {s : Supervisor σ} (h : s.Reconciled) (w : Watch) (score : Float)
    (final : Bool) : (s.enterScore w score final).Reconciled := by
  obtain ⟨book, feed, outbox, heq⟩ := enterScore_eq s w score final
  rw [heq]
  exact h.congr rfl rfl rfl rfl rfl

/-- A publication leaves the watches in line. -/
theorem Reconciled.republishIf {s : Supervisor σ} (h : s.Reconciled) (reason : Bool) :
    (s.republishIf reason).Reconciled := by
  obtain ⟨feed, outbox, heq⟩ := republishIf_eq s reason
  rw [heq]
  exact h.congr rfl rfl rfl rfl rfl

variable [LawfulStrategy σ]

/-- A request brings the watches in line, and after the close it does nothing. -/
theorem reconciled_refresh {s t : Supervisor σ} (hrest : s.refreshing = false)
    (hs : s.closing = true → s.checked = [] ∧ s.current = []) (h : s.refresh = some t) :
    t.Reconciled := by
  cases hclosing : s.closing with
  | true =>
    rw [refresh_of_closing hclosing] at h
    cases h
    refine ⟨fun hopen => ?_, fun _ => hs hclosing⟩
    cases hclosing.symm.trans hopen
  | false =>
    refine ⟨fun _ => inLine_refresh hrest hclosing h, fun hclosed => ?_⟩
    have hopen := (Steady.refresh hrest h).closing.trans hclosing
    cases hclosed.symm.trans hopen

/-- A score that asks for no pass leaves the watches in line, any other is followed by passes. -/
theorem Reconciled.deliver {s t : Supervisor σ} (hs : s.Reconciled) (hrest : s.refreshing = false)
    {i : Nat} {score : Float} {final : Bool} (h : s.deliver i score final = some t) :
    t.Reconciled := by
  rcases deliver_cases h with ⟨-, rfl⟩ | ⟨w, u, -, rfl, ⟨-, rfl⟩ | ⟨-, hu⟩⟩
  · exact hs
  · exact hs.congr rfl rfl rfl rfl rfl
  · have hentered := hs.enterScore w score final
    suffices hu : u.Reconciled from hu.congr rfl rfl rfl rfl rfl
    rcases consult_cases hu with ⟨hstill, rfl⟩ | ⟨-, hu⟩
    · refine ⟨fun hopen => ?_, hentered.emptied⟩
      obtain ⟨hidle, hline⟩ := hentered.followed hopen
      refine ⟨hidle, hline.noted, fun e => ?_⟩
      exact (hline.followed e).trans
        (LawfulStrategy.mem_selected_judge _ w.origin score hstill e).symm
    · refine reconciled_refresh ?_ ?_ hu
      · exact (Steady.enterScore s w score final).refreshing.trans hrest
      · exact hentered.emptied

/-- Every event leaves the watches in line with the selection. -/
theorem Reconciled.step {s t : Supervisor σ} {event : Event} (hs : s.Reconciled)
    (hrest : s.refreshing = false) (k : Step s event t) : t.Reconciled := by
  cases k with
  | listen listener => exact hs.congr rfl rfl rfl rfl rfl
  | offer h =>
    obtain ⟨u, hu, rfl⟩ := offer_eq_some_iff.mp h
    refine (reconciled_refresh ?_ ?_ hu).republishIf _
    · exact hrest
    · exact hs.emptied
  | report h => exact hs.deliver hrest h
  | retire _ h =>
    obtain rfl | ⟨w, -, -, h⟩ := retire_eq_some h
    · exact hs
    · refine Reconciled.deliver ?_ ?_ h
      · exact hs.congr rfl rfl rfl rfl rfl
      · exact hrest
  | start _ =>
    have hstarted : Reconciled { s with started := true } := hs.congr rfl rfl rfl rfl rfl
    exact hstarted.republishIf true
  | beginClose _ =>
    refine ⟨fun hopen => ?_, fun _ => ⟨rfl, rfl⟩⟩
    cases hopen
  | finishClose _ => exact hs.congr rfl rfl rfl rfl rfl
  | enterJob h =>
    obtain ⟨f, rfl, -⟩ := eq_modifyWatch_of_enterJob h
    exact hs.congr rfl rfl rfl rfl rfl
  | releaseJob i id => exact hs.congr rfl rfl rfl rfl rfl

/-- The watches of a life that began with nothing selected follow the selection. -/
theorem Run.reconciled {terms : Terms} {strategy : σ} (hnone : Strategy.selected strategy = [])
    {events : List Event} {s : Supervisor σ} (h : Run (fresh terms strategy) events s) :
    s.Reconciled := by
  have hfresh : (fresh terms strategy).Reconciled := by
    refine ⟨fun _ => ⟨rfl, rfl, fun e => ?_⟩, fun hclosed => ?_⟩
    · show e ∈ [] ↔ e ∈ Strategy.selected strategy
      rw [hnone]
    · cases hclosed
  exact (h.keeps_at_rest (P := Reconciled) (fun _ _ _ ht hrest k => ht.step hrest k) hfresh).1

/-- Every endpoint with a watch in force is a candidate. -/
theorem mem_candidates_of_inForce {terms : Terms} {policy : Policy} (hunused : policy.Unused)
    {events : List Event} {s : Supervisor Policy} (h : Run (fresh terms policy) events s)
    {e : Endpoint} (he : e ∈ s.inForce) : e ∈ s.candidates := by
  have hreconciled := h.reconciled hunused.selected
  cases hclosing : s.closing with
  | true =>
    rw [inForce, (hreconciled.emptied hclosing).2] at he
    cases he
  | false =>
    have hfollowed := (hreconciled.followed hclosing).2.followed
    exact (h.sound hunused).mem_candidates ((hfollowed e).mp he)

/-! ## Main statement -/

/-- Between two events, until the close, the endpoints with a watch in force are the selected ones,
each with one watch, the known endpoints are these, each once, and no trigger is left unanswered. -/
theorem watches_follow_the_selection (terms : Terms) (quota : Option Quota) {events : List Event}
    {s : Supervisor Policy} (h : Run (fresh terms (Policy.ofQuota quota)) events s)
    (hopen : s.closing = false) :
    (∀ e, e ∈ s.inForce ↔ e ∈ Strategy.selected s.strategy) ∧ s.inForce.Nodup ∧
      s.checked.Nodup ∧ (∀ e, e ∈ s.checked ↔ e ∈ s.inForce) ∧ s.requested = false := by
  have hnone : Strategy.selected (Policy.ofQuota quota) = [] :=
    (Policy.unused_ofQuota quota).selected
  obtain ⟨hidle, hline⟩ := (h.reconciled hnone).followed hopen
  have honce := h.manned.once
  rw [hline.noted]
  exact ⟨hline.followed, honce, honce, fun _ => Iff.rfl, hidle⟩

/-- One of three endpoints is checked, and each but the last reports a failure while its watch is
being begun: the selection moves on within the passes until it comes to rest there. -/
theorem watches_follow_two_failures :
    let a : Endpoint := { host := "a" }
    let b : Endpoint := { host := "b" }
    let c : Endpoint := { host := "c" }
    let terms : Terms :=
      { greeting := fun before e => [.report before.length (if e = c then 1.0 else 0.0)] }
    let events : List Event := [.offer [a, b, a, c]]
    ∃ s, Run (fresh terms (Policy.ofQuota (some (.count 1)))) events s ∧ s.watches.length = 3 ∧
      s.checked = [c] ∧ ∀ e, e ∈ s.inForce ↔ e ∈ Strategy.selected s.strategy := by
  intro a b c terms events
  obtain ⟨s, h, hopen, hwatches, hchecked⟩ :
      ∃ s, Run (fresh terms (Policy.ofQuota (some (.count 1)))) events s ∧ s.closing = false ∧
        s.watches.length = 3 ∧ s.checked = [c] :=
    exists_run_of_replay (n := 9) rfl (by decide)
  exact ⟨s, h, hwatches, hchecked, (watches_follow_the_selection terms _ h hopen).1⟩

end HealthWatch.Supervisor
