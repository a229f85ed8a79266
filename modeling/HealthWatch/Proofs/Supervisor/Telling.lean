import HealthWatch.Proofs.Supervisor.Moments

/-!
# What listeners are told

What listeners are told is in the outbox, in order. `Tells` says of a part of a life that each list
told in it was that of the healthy candidates in one of its states, the one in which the outbox
ends with that list. Parts are put together by `Tells.trans` and `Tells.foldl`: calls to a pass,
passes to an event (`Step.tells`), and events to a life (`Run.tells`).
-/

set_option autoImplicit false

namespace HealthWatch.Supervisor

variable {σ : Type}

/-- What is put in the outbox on the way from one state to another is at its end, and each list
among it is that of the healthy candidates in a state of the given kind, the outbox of which ends
with it. -/
def Tells (Q : Supervisor σ → Prop) (s t : Supervisor σ) : Prop :=
  ∃ effects, t.outbox = s.outbox ++ effects ∧ ∀ before list audience after,
    effects = before ++ Effect.published list audience :: after →
      ∃ u, Q u ∧ u.outbox = s.outbox ++ before ++ [Effect.published list audience] ∧
        list = u.healthyCandidates

section

variable {Q : Supervisor σ → Prop}

/-- Nothing is told where only watches begin or are released. -/
theorem tells_silent {s t : Supervisor σ} {effects : List Effect}
    (h : t.outbox = s.outbox ++ effects)
    (hsilent : ∀ list audience, Effect.published list audience ∉ effects) : Tells Q s t := by
  refine ⟨effects, h, ?_⟩
  intro before list audience after heq
  exact absurd (by simp [heq]) (hsilent list audience)

/-- Nothing is told where the outbox stays. -/
theorem tells_same {s t : Supervisor σ} (h : t.outbox = s.outbox) : Tells Q s t := by
  have hnothing : t.outbox = s.outbox ++ [] := by rw [h, List.append_nil]
  exact tells_silent hnothing (by simp)

/-- What was told in states of a kind was told in states of any wider kind. -/
theorem Tells.mono {R : Supervisor σ → Prop} {s t : Supervisor σ} (h : Tells Q s t)
    (himp : ∀ u, Q u → R u) : Tells R s t := by
  obtain ⟨effects, heffects, hlists⟩ := h
  refine ⟨effects, heffects, ?_⟩
  intro before list audience after heq
  obtain ⟨u, hu, houtbox, hlist⟩ := hlists before list audience after heq
  exact ⟨u, himp u hu, houtbox, hlist⟩

/-- What is told in two parts of a life, one after the other, is told in both together. -/
theorem Tells.trans {s t v : Supervisor σ} (h : Tells Q s t) (k : Tells Q t v) : Tells Q s v := by
  obtain ⟨first, hfirst, hfirstLists⟩ := h
  obtain ⟨second, hsecond, hsecondLists⟩ := k
  refine ⟨first ++ second, by rw [hsecond, hfirst, List.append_assoc], ?_⟩
  intro before list audience after heq
  rcases List.append_eq_append_iff.mp heq with ⟨rest, hbefore, hlater⟩ | ⟨rest, hearlier, hlater⟩
  · obtain ⟨u, hu, houtbox, hlist⟩ := hsecondLists rest list audience after hlater
    refine ⟨u, hu, ?_, hlist⟩
    rw [houtbox, hfirst, hbefore]
    simp
  · cases rest with
    | nil =>
      obtain ⟨u, hu, houtbox, hlist⟩ :=
        hsecondLists [] list audience after (by simpa using hlater.symm)
      refine ⟨u, hu, ?_, hlist⟩
      rw [houtbox, hfirst, hearlier]
      simp
    | cons effect rest =>
      obtain ⟨rfl, -⟩ := List.cons.inj hlater
      exact hfirstLists before list audience rest hearlier

/-- A publication that ends a change is told in the state that it leads to. -/
theorem tells_of_end {s t : Supervisor σ} (hQ : Q t)
    (h : t.outbox = s.outbox ∨
      ∃ audience, t.outbox = s.outbox ++ [Effect.published t.healthyCandidates audience]) :
    Tells Q s t := by
  rcases h with h | ⟨audience, h⟩
  · exact tells_same h
  · refine ⟨_, h, ?_⟩
    intro before list others after heq
    cases before with
    | nil =>
      obtain ⟨hsame, -⟩ := List.cons.inj heq
      obtain ⟨rfl, rfl⟩ := Effect.published.inj hsame
      exact ⟨t, hQ, by rw [h, List.append_nil], rfl⟩
    | cons effect before => simp at heq

/-- A fold tells what its steps tell. -/
theorem Tells.foldl {α : Type} {f : Supervisor σ → α → Supervisor σ} {l : List α}
    {s : Supervisor σ}
    (h : ∀ before a after, l = before ++ a :: after →
      Tells Q (before.foldl f s) ((before ++ [a]).foldl f s)) : Tells Q s (l.foldl f s) := by
  induction l generalizing s with
  | nil => exact tells_same rfl
  | cons a l ih =>
    have hfirst : Tells Q s (f s a) := h [] a l rfl
    refine hfirst.trans (ih fun before b after heq => ?_)
    exact h (a :: before) b after (by rw [heq, List.cons_append])

end

/-- A publication leaves the healthy candidates as they are. -/
theorem healthyCandidates_republish (s : Supervisor σ) :
    s.republish.healthyCandidates = s.healthyCandidates := by
  unfold republish
  dsimp only
  split <;> rfl

/-- A publication is the last thing in the outbox. -/
theorem outbox_republishIf (s : Supervisor σ) (reason : Bool) :
    (s.republishIf reason).outbox = s.outbox ∨ ∃ audience, (s.republishIf reason).outbox =
      s.outbox ++ [Effect.published (s.republishIf reason).healthyCandidates audience] := by
  unfold republishIf
  split
  · rw [healthyCandidates_republish]
    unfold republish
    dsimp only
    split
    · exact Or.inr ⟨_, rfl⟩
    · exact Or.inl rfl
  · exact Or.inl rfl

/-- Entering a score tells nothing, or the healthy candidates that there are then. -/
theorem outbox_enterScore (s : Supervisor σ) (w : Watch) (score : Float) (final : Bool) :
    (s.enterScore w score final).outbox = s.outbox ∨
      ∃ audience, (s.enterScore w score final).outbox =
        s.outbox ++ [Effect.published (s.enterScore w score final).healthyCandidates audience] := by
  unfold enterScore
  split
  · exact Or.inl rfl
  · split
    · exact outbox_republishIf (s.forget w.origin) _
    · exact outbox_republishIf (s.record w.origin score) _

variable [Strategy σ]

/-- A call made while passes are under way publishes at most once, and after that it changes neither
the candidates nor the book. -/
theorem tells_interject (s : Supervisor σ) (call : Call) :
    Tells (· = s.interject call) s (s.interject call) := by
  refine tells_of_end rfl ?_
  cases call with
  | offer candidates => exact outbox_republishIf ((s.adopt candidates).setRequested true) _
  | report i score =>
    show (s.absorb i score false).outbox = s.outbox ∨ ∃ audience, (s.absorb i score false).outbox =
      s.outbox ++ [Effect.published (s.absorb i score false).healthyCandidates audience]
    unfold absorb
    split
    · exact Or.inl rfl
    · rename_i w _
      split
      · exact Or.inl rfl
      · exact outbox_enterScore s w score false

/-! ## What is told during passes -/

/-- Beginning a watch tells what the calls of its check tell. -/
theorem tells_beginOnce {Q : Supervisor σ → Prop} {s : Supervisor σ} {e : Endpoint}
    (hQ : ∀ done rest, s.terms.greeting (s.watches.map Watch.origin) e = done ++ rest →
      Q (done.foldl interject (s.addWatch e))) : Tells Q s (s.beginOnce e) := by
  have hadd : Tells Q s (s.addWatch e) := tells_same rfl
  have hcalls : Tells Q (s.addWatch e)
      ((s.terms.greeting (s.watches.map Watch.origin) e).foldl interject (s.addWatch e)) := by
    refine Tells.foldl fun before call after heq => ?_
    rw [List.foldl_append, List.foldl_cons, List.foldl_nil]
    refine (tells_interject _ call).mono ?_
    rintro u rfl
    have hprefix := hQ (before ++ [call]) after (by simp [heq])
    rw [List.foldl_append] at hprefix
    exact hprefix
  exact (hadd.trans hcalls).trans (tells_silent rfl (by simp))

/-- A pass tells what the calls within it tell. -/
theorem tells_passOnce {s : Supervisor σ} (hdue : s.requested = true) (hopen : s.closing = false) :
    Tells (Within s) s (s.setRequested false).passOnce := by
  have hrelease : Tells (Within s) s
      ((s.setRequested false).releaseUnchosen (Strategy.selected s.strategy)) :=
    tells_silent rfl (by simp)
  refine (hrelease.trans (Tells.foldl fun before e after hchosen => ?_)).trans (tells_same rfl)
  rw [List.foldl_append, List.foldl_cons, List.foldl_nil, ensureWatch]
  split
  · exact tells_same rfl
  · rename_i hfree
    refine tells_beginOnce fun done rest hcalls => ?_
    exact Within.call hdue hopen hchosen rfl (by simpa using hfree) hcalls

/-- Passes tell what the calls within them tell. -/
theorem tells_passesWithin {n : Nat} {s t : Supervisor σ} (h : s.passesWithin n = some t) :
    Tells (Within s) s t := by
  induction n generalizing s with
  | zero => simp [passesWithin] at h
  | succ n ih =>
    simp only [passesWithin] at h
    split at h
    · rename_i hdue
      split at h
      · cases h
        exact tells_same rfl
      · rename_i hopen
        have hopen : s.closing = false := by simpa using hopen
        refine (tells_passOnce hdue hopen).trans ((ih h).mono fun u hu => ?_)
        exact Within.next hdue hopen hu
    · cases h
      exact tells_same rfl

/-- A request tells what the calls within its passes tell. -/
theorem tells_refresh {s t : Supervisor σ} (hrest : s.refreshing = false)
    (h : s.refresh = some t) : Tells (WithinRequest s) s t := by
  cases hclosing : s.closing with
  | true =>
    rw [refresh_of_closing hclosing] at h
    cases h
    exact tells_same rfl
  | false =>
    obtain ⟨n, u, hn, rfl⟩ := (refresh_eq_some_iff hrest hclosing).mp h
    have hstart : Tells (WithinRequest s) s ((s.setRequested true).setRefreshing true) :=
      tells_same rfl
    refine (hstart.trans ((tells_passesWithin hn).mono fun v hv => ?_)).trans (tells_same rfl)
    exact ⟨hclosing, hv⟩

/-! ## What is told at events -/

/-- A score tells what entering it tells, and then what its passes tell. -/
theorem tells_deliver {s t : Supervisor σ} (hrest : s.refreshing = false) {i : Nat} {w : Watch}
    (hw : s.watches[i]? = some w) {score : Float} {final : Bool}
    (h : s.deliver i score final = some t) : Tells (WithinScore s w score final) s t := by
  rcases deliver_cases h with ⟨hnone, rfl⟩ | ⟨v, u, hv, rfl, ⟨-, rfl⟩ | ⟨-, hu⟩⟩
  · exact tells_same rfl
  · exact tells_same rfl
  · obtain rfl : w = v := Option.some.inj (hw.symm.trans hv)
    have hentered : Tells (WithinScore s w score final) s (s.enterScore w score final) :=
      tells_of_end WithinScore.entered (outbox_enterScore s w score final)
    suffices hheard : Tells (WithinScore s w score final) (s.enterScore w score final) u from
      (hentered.trans hheard).trans (tells_same rfl)
    rcases consult_cases hu with ⟨-, rfl⟩ | ⟨hmoved, hu⟩
    · exact tells_same rfl
    · have hrest' := (Steady.enterScore s w score final).refreshing.trans hrest
      have hrefresh := tells_refresh (by exact hrest') hu
      refine Tells.trans (tells_same rfl) (hrefresh.mono fun x hx => ?_)
      exact WithinScore.passes rfl hmoved hx

/-- What is told at an event is told in the middle of it or at its end. -/
theorem Step.tells {s t : Supervisor σ} {event : Event} (k : Step s event t)
    (hrest : s.refreshing = false) : Tells (fun u => WithinEvent s event u ∨ u = t) s t := by
  cases k with
  | listen listener => exact tells_same rfl
  | @offer candidates _ h =>
    obtain ⟨u, hu, rfl⟩ := offer_eq_some_iff.mp h
    have hadopt : Tells (fun v => WithinEvent s (.offer candidates) v ∨ v = u.republishIf u.started)
        s (s.adopt candidates) := tells_same rfl
    have hrefresh := (tells_refresh (by exact hrest) hu).mono fun v hv =>
      Or.inl (b := v = u.republishIf u.started) (WithinEvent.offer hv)
    exact (hadopt.trans hrefresh).trans (tells_of_end (Or.inr rfl) (outbox_republishIf u _))
  | @report i score _ h =>
    cases hw : s.watches[i]? with
    | none =>
      rw [Supervisor.report, deliver.eq_1, hw] at h
      cases h
      exact tells_same rfl
    | some w =>
      exact (tells_deliver hrest hw h).mono fun u hu => Or.inl (WithinEvent.report hw hu)
  | @retire i _ hfree h =>
    obtain rfl | ⟨w, hw, hlive, h⟩ := retire_eq_some h
    · exact tells_same rfl
    · have hend : (s.modifyWatch i Watch.retire).watches[i]? = some w.retire := by
        simp [modifyWatch, hw]
      have htells := (tells_deliver (by exact hrest) hend h).mono fun u hu =>
        Or.inl (b := u = t) (WithinEvent.retire hfree hw hlive hu)
      exact Tells.trans (tells_same rfl) htells
  | start h =>
    exact tells_of_end (Or.inr rfl) (outbox_republishIf { s with started := true } true)
  | beginClose h => exact tells_same rfl
  | finishClose h => exact tells_same rfl
  | enterJob h =>
    obtain ⟨f, rfl, -⟩ := eq_modifyWatch_of_enterJob h
    exact tells_same rfl
  | releaseJob i id => exact tells_same rfl

/-- Each list that was put into the outbox in a life was that of the healthy candidates at that
moment. -/
theorem Run.tells {terms : Terms} {strategy : σ} {events : List Event} {s : Supervisor σ}
    (h : Run (fresh terms strategy) events s) :
    Tells (Moment (fresh terms strategy) events s) (fresh terms strategy) s := by
  induction h with
  | nil => exact tells_same rfl
  | @snoc events event t v h k ih =>
    refine (ih.mono fun u hu => hu.snoc k).trans ((k.tells (Run.refreshing h)).mono fun u hu => ?_)
    exact ⟨events, event, [], t, v, rfl, h, k, Run.nil, hu⟩

end HealthWatch.Supervisor
