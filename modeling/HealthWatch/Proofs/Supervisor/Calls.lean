import HealthWatch.Proofs.Supervisor.Moments

/-!
# What a supervisor is asked

A supervisor is called by its source and by its watches. It is called between two events, and in the
middle of an event by the check of a watch that is being begun. `Asks` says which calls are made at
an event and in which states, `Asked` says the same of a run.

Some properties come about by reports only and stay. Once it is known how entering a score and
marking a watch bear on such a property, and that nothing else does (`BroughtByReports`), it is
known what an event brings about (`BroughtByReports.step`). The property holds after a run exactly
if it held before or one of the events brought it about (`Run.adds`).
-/

set_option autoImplicit false

namespace HealthWatch.Supervisor

variable {σ : Type} [Strategy σ]

/-! ## Calls and the states in which they are made -/

/-- A watch that passes begin: the state in which it is begun, and its endpoint. -/
inductive Begins : Supervisor σ → Supervisor σ → Endpoint → Prop where
  /-- The first pass comes to an endpoint that has no watch in force. -/
  | now {s t : Supervisor σ} {before after : List Endpoint} {e : Endpoint}
      (hdue : s.requested = true) (hopen : s.closing = false)
      (hchosen : Strategy.selected s.strategy = before ++ e :: after)
      (ht : t = before.foldl ensureWatch
        ((s.setRequested false).releaseUnchosen (Strategy.selected s.strategy)))
      (hfree : t.watching e = false) : Begins s t e
  /-- The first pass is over. -/
  | later {s t : Supervisor σ} {e : Endpoint} (hdue : s.requested = true)
      (hopen : s.closing = false) (h : Begins (s.setRequested false).passOnce t e) : Begins s t e

/-- A watch that is begun at a request made while no pass is under way. -/
def BeginsAtRequest (s t : Supervisor σ) (e : Endpoint) : Prop :=
  s.closing = false ∧ Begins ((s.setRequested true).setRefreshing true) t e

/-- A watch that is begun because the strategy asks for passes when it hears a score. -/
def BeginsAtScore (s : Supervisor σ) (w : Watch) (score : Float) (final : Bool)
    (t : Supervisor σ) (e : Endpoint) : Prop :=
  let entered := s.enterScore w score final
  let judged := Strategy.judge entered.strategy w.origin score
  judged.2 = true ∧ (entered.setStrategy judged.1).BeginsAtRequest t e

/-- A watch that is begun at an event. -/
inductive BeginsAt (s : Supervisor σ) : Event → Supervisor σ → Endpoint → Prop where
  | offer {candidates : List Endpoint} {t : Supervisor σ} {e : Endpoint}
      (h : (s.adopt candidates).BeginsAtRequest t e) : BeginsAt s (.offer candidates) t e
  | report {i : Nat} {score : Float} {w : Watch} {t : Supervisor σ} {e : Endpoint}
      (hw : s.watches[i]? = some w) (h : s.BeginsAtScore w score false t e) :
      BeginsAt s (.report i score) t e
  | retire {i : Nat} {w : Watch} {t : Supervisor σ} {e : Endpoint}
      (hw : s.watches[i]? = some w) (hlive : w.retired = false)
      (h : (s.modifyWatch i Watch.retire).BeginsAtScore w.retire 0.0 true t e) :
      BeginsAt s (.retire i) t e

/-- The calls made at an event, each with the state in which it is made. -/
inductive Asks (s : Supervisor σ) : Event → Supervisor σ → Call → Prop where
  | offer (candidates : List Endpoint) : Asks s (.offer candidates) s (.offer candidates)
  | report (i : Nat) (score : Float) : Asks s (.report i score) s (.report i score)
  /-- The check of a watch that is being begun makes its calls one after the other. -/
  | check {event : Event} {t : Supervisor σ} {e : Endpoint} {done rest : List Call} {call : Call}
      (h : BeginsAt s event t e)
      (hcalls : t.terms.greeting (t.watches.map Watch.origin) e = done ++ call :: rest) :
      Asks s event (done.foldl interject (t.addWatch e)) call

/-- At one of the events of a run this was so. -/
def Occurs (s : Supervisor σ) (events : List Event) (t : Supervisor σ)
    (B : Supervisor σ → Event → Prop) : Prop :=
  ∃ earlier event later before after, events = earlier ++ event :: later ∧
    Run s earlier before ∧ Step before event after ∧ Run after later t ∧ B before event

/-- What occurs in a run occurs under any weaker description. -/
theorem Occurs.imp {s t : Supervisor σ} {events : List Event} {B C : Supervisor σ → Event → Prop}
    (h : Occurs s events t B) (hBC : ∀ before event, B before event → C before event) :
    Occurs s events t C := by
  obtain ⟨earlier, event, later, before, after, heq, hbefore, hevent, hafter, hB⟩ := h
  exact ⟨earlier, event, later, before, after, heq, hbefore, hevent, hafter, hBC before event hB⟩

/-- What occurs in the first part of a run occurs in the run. -/
theorem Occurs.later {s t u : Supervisor σ} {events more : List Event}
    {B : Supervisor σ → Event → Prop} (h : Occurs s events t B) (k : Run t more u) :
    Occurs s (events ++ more) u B := by
  obtain ⟨earlier, event, later, before, after, rfl, hbefore, hevent, hafter, hB⟩ := h
  exact ⟨earlier, event, later ++ more, before, after, by simp, hbefore, hevent, hafter.append k,
    hB⟩

/-- What occurs in the last part of a run occurs in the run. -/
theorem Occurs.earlier {s t u : Supervisor σ} {first events : List Event}
    {B : Supervisor σ → Event → Prop} (k : Run s first t) (h : Occurs t events u B) :
    Occurs s (first ++ events) u B := by
  obtain ⟨earlier, event, later, before, after, rfl, hbefore, hevent, hafter, hB⟩ := h
  exact ⟨first ++ earlier, event, later, before, after, by simp, k.append hbefore, hevent, hafter,
    hB⟩

/-- The call was made in a run, in this state. -/
def Asked (s : Supervisor σ) (events : List Event) (t u : Supervisor σ) (call : Call) : Prop :=
  Occurs s events t fun before event => Asks before event u call

/-- Can a call be made at the event? -/
def Event.calls : Event → Bool
  | .offer _ | .report _ _ | .retire _ => true
  | _ => false

/-! ## What brings a property about -/

/-- On the way from one state to another the property `P` came about exactly if `B`, and it was not
lost; all that under the invariant `J`, which is kept. -/
def Adds (J P : Supervisor σ → Prop) (B : Prop) (s t : Supervisor σ) : Prop :=
  J s → J t ∧ (P t ↔ P s ∨ B)

namespace Adds

variable {J P : Supervisor σ → Prop} {B C : Prop} {s t u : Supervisor σ}

omit [Strategy σ] in
/-- A change that keeps the invariant and does not touch the property brings nothing about. -/
theorem same (hJ : J s → J t) (hP : P t ↔ P s) : Adds J P False s t :=
  fun hs => ⟨hJ hs, by rw [hP, or_false]⟩

omit [Strategy σ] in
/-- What brings the property about may be said in other words. -/
theorem congr (h : Adds J P B s t) (hiff : B ↔ C) : Adds J P C s t := by
  rwa [← hiff]

omit [Strategy σ] in
/-- Of two changes, one after the other, either may bring the property about. -/
theorem trans (h : Adds J P B s t) (k : Adds J P C t u) : Adds J P (B ∨ C) s u := by
  intro hs
  obtain ⟨ht, hPt⟩ := h hs
  obtain ⟨hu, hPu⟩ := k ht
  exact ⟨hu, by rw [hPu, hPt, or_assoc]⟩

omit [Strategy σ] in
/-- What bears on nothing may come first. -/
theorem after (h : Adds J P False s t) (k : Adds J P B t u) : Adds J P B s u :=
  (h.trans k).congr (by rw [false_or])

omit [Strategy σ] in
/-- What bears on nothing may come last. -/
theorem before (h : Adds J P B s t) (k : Adds J P False t u) : Adds J P B s u :=
  (h.trans k).congr (by rw [or_false])

omit [Strategy σ] in
/-- A fold brings the property about if one of its steps does. -/
theorem foldl {α : Type} {f : Supervisor σ → α → Supervisor σ} {C : Supervisor σ → α → Prop}
    (hf : ∀ s a, Adds J P (C s a) s (f s a)) (l : List α) (s : Supervisor σ) :
    Adds J P (∃ before a after, l = before ++ a :: after ∧ C (before.foldl f s) a) s
      (l.foldl f s) := by
  induction l generalizing s with
  | nil => exact (same id Iff.rfl).congr (by simp)
  | cons a l ih =>
    refine ((hf s a).trans (ih (f s a))).congr ⟨?_, ?_⟩
    · rintro (hfirst | ⟨before, b, after, rfl, hlater⟩)
      · exact ⟨[], a, l, rfl, hfirst⟩
      · exact ⟨a :: before, b, after, rfl, hlater⟩
    · rintro ⟨before, b, after, heq, h⟩
      cases before with
      | nil =>
        obtain ⟨rfl, rfl⟩ := List.cons.inj heq
        exact Or.inl h
      | cons first before =>
        obtain ⟨rfl, rfl⟩ := List.cons.inj heq
        exact Or.inr ⟨before, b, after, rfl, h⟩

end Adds

/-- A property that comes about by entering a score of a watch (`E`) or by marking a watch (`M`),
and by nothing else that calls and passes do. -/
structure BroughtByReports (J P : Supervisor σ → Prop) (E : Watch → Float → Prop)
    (M : Nat → Prop) : Prop where
  there : ∀ s, J s → s.abandoned = false
  enterScore : ∀ s w score final, (final = true → w.retired = true ∧ score = 0.0) →
    Adds J P (E w score) s (s.enterScore w score final)
  markReported : ∀ s i w, s.watches[i]? = some w →
    Adds J P (M i) s (s.modifyWatch i Watch.markReported)
  retireWatch : ∀ s i, Adds J P False s (s.modifyWatch i Watch.retire)
  judge : ∀ s e score, Adds J P False s (s.setStrategy (Strategy.judge s.strategy e score).1)
  adopt : ∀ s candidates, Adds J P False s (s.adopt candidates)
  publish : ∀ s, Adds J P False s (s.republishIf s.started)
  setRequested : ∀ s due, Adds J P False s (s.setRequested due)
  setRefreshing : ∀ s underWay, Adds J P False s (s.setRefreshing underWay)
  addWatch : ∀ s e, Adds J P False s (s.addWatch e)
  enlist : ∀ s e i, Adds J P False s (s.enlist e i)
  releaseUnchosen : ∀ s chosen, Adds J P False s (s.releaseUnchosen chosen)
  noteChecked : ∀ s, Adds J P False s s.noteChecked

/-- What a call brings about in a state. -/
def Brings (E : Watch → Float → Prop) (M : Nat → Prop) (s : Supervisor σ) : Call → Prop
  | .offer _ => False
  | .report i score => ∃ w, s.watches[i]? = some w ∧ (E w score ∨ M i)

/-- What the check of a watch on an endpoint brings about when it is begun. -/
def BringsBegun (E : Watch → Float → Prop) (M : Nat → Prop) (s : Supervisor σ) (e : Endpoint) :
    Prop :=
  ∃ done call rest, s.terms.greeting (s.watches.map Watch.origin) e = done ++ call :: rest ∧
    Brings E M (done.foldl interject (s.addWatch e)) call

/-- What an event brings about: the end of a watch does, or a call. -/
def BringsAt (E : Watch → Float → Prop) (M : Nat → Prop) (s : Supervisor σ) (event : Event) :
    Prop :=
  (∃ i w, event = .retire i ∧ s.watches[i]? = some w ∧ w.retired = false ∧
    (E w.retire 0.0 ∨ M i)) ∨ ∃ u call, Asks s event u call ∧ Brings E M u call

section

variable {E : Watch → Float → Prop} {M : Nat → Prop} {s : Supervisor σ}

/-- At an offer watches are begun by the passes that follow the new candidates. -/
theorem beginsAt_offer_iff {candidates : List Endpoint} {t : Supervisor σ} {e : Endpoint} :
    BeginsAt s (.offer candidates) t e ↔ (s.adopt candidates).BeginsAtRequest t e := by
  constructor
  · rintro ⟨h⟩
    exact h
  · exact BeginsAt.offer

/-- At a report watches are begun by the passes that the score leads to. -/
theorem beginsAt_report_iff {i : Nat} {w : Watch} (hw : s.watches[i]? = some w) {score : Float}
    {t : Supervisor σ} {e : Endpoint} :
    BeginsAt s (.report i score) t e ↔ s.BeginsAtScore w score false t e := by
  constructor
  · intro hbegins
    cases hbegins with
    | report hv h =>
      obtain rfl := Option.some.inj (hw.symm.trans hv)
      exact h
  · exact BeginsAt.report hw

/-- At the end of a watch others are begun by the passes that its last score leads to. -/
theorem beginsAt_retire_iff {i : Nat} {w : Watch} (hw : s.watches[i]? = some w)
    (hlive : w.retired = false) {t : Supervisor σ} {e : Endpoint} :
    BeginsAt s (.retire i) t e ↔
      (s.modifyWatch i Watch.retire).BeginsAtScore w.retire 0.0 true t e := by
  constructor
  · intro hbegins
    cases hbegins with
    | retire hv _ h =>
      obtain rfl := Option.some.inj (hw.symm.trans hv)
      exact h
  · exact BeginsAt.retire hw hlive

/-- An event brings about what it asks for itself and what the checks of the watches do that are
begun at it. -/
theorem bringsAt_iff {event : Event} :
    BringsAt E M s event ↔
      (∃ i w, event = .retire i ∧ s.watches[i]? = some w ∧ w.retired = false ∧
        (E w.retire 0.0 ∨ M i)) ∨
      (∃ i score, event = .report i score ∧ Brings E M s (.report i score)) ∨
      ∃ t e, BeginsAt s event t e ∧ BringsBegun E M t e := by
  refine or_congr_right ⟨?_, ?_⟩
  · rintro ⟨u, call, hasks, hbrings⟩
    cases hasks with
    | offer => exact hbrings.elim
    | report i score => exact Or.inl ⟨i, score, rfl, hbrings⟩
    | check hbegins hcalls => exact Or.inr ⟨_, _, hbegins, _, call, _, hcalls, hbrings⟩
  · rintro (⟨i, score, rfl, hbrings⟩ | ⟨t, e, hbegins, done, call, rest, hcalls, hbrings⟩)
    · exact ⟨s, _, Asks.report i score, hbrings⟩
    · exact ⟨_, call, Asks.check hbegins hcalls, hbrings⟩

/-- Only an event at which calls are made brings anything about. -/
theorem calls_of_bringsAt {event : Event} (h : BringsAt E M s event) : event.calls = true := by
  rcases bringsAt_iff.mp h with ⟨i, w, rfl, -⟩ | ⟨i, score, rfl, -⟩ | ⟨t, e, hbegins, -⟩
  · rfl
  · rfl
  · cases hbegins <;> rfl

end

namespace BroughtByReports

variable {J P : Supervisor σ → Prop} {E : Watch → Float → Prop} {M : Nat → Prop}

/-! ## Calls within passes -/

/-- A report within a pass brings about what entering its score and marking its watch do. -/
theorem absorb (h : BroughtByReports J P E M) (s : Supervisor σ) (i : Nat) (score : Float) :
    Adds J P (Brings E M s (.report i score)) s (s.absorb i score false) := by
  intro hs
  unfold Supervisor.absorb
  cases hw : s.watches[i]? with
  | none => exact (Adds.same id Iff.rfl).congr (by simp [Brings, hw]) hs
  | some w =>
    simp only [h.there s hs, Bool.false_eq_true, if_false]
    let entered := s.enterScore w score false
    have hentered : Adds J P (E w score) s entered :=
      h.enterScore s w score false (absurd · Bool.false_ne_true)
    have hheard : Adds J P (E w score) s (entered.heed w.origin score) :=
      (hentered.before (h.judge entered w.origin score)).before (h.setRequested _ _)
    have hstill : (entered.heed w.origin score).watches[i]? = some w := by
      obtain ⟨book, feed, outbox, heq⟩ := enterScore_eq s w score false
      show entered.watches[i]? = some w
      rw [show entered = _ from heq]
      exact hw
    refine (hheard.trans (h.markReported _ i w hstill)).congr ?_ hs
    simp [Brings, hw]

/-- New candidates within a pass bring nothing about. -/
theorem takeIn (h : BroughtByReports J P E M) (s : Supervisor σ) (candidates : List Endpoint) :
    Adds J P False s (s.takeIn candidates) :=
  ((h.adopt s candidates).before (h.setRequested _ true)).before (h.publish _)

/-- A call within a pass brings about what it does. -/
theorem interject (h : BroughtByReports J P E M) (s : Supervisor σ) (call : Call) :
    Adds J P (Brings E M s call) s (s.interject call) := by
  cases call with
  | offer candidates => exact h.takeIn s candidates
  | report i score => exact h.absorb s i score

/-- To begin a watch brings about what the calls of its check do. -/
theorem beginOnce (h : BroughtByReports J P E M) (s : Supervisor σ) (e : Endpoint) :
    Adds J P (BringsBegun E M s e) s (s.beginOnce e) := by
  have hcalls := Adds.foldl h.interject (s.terms.greeting (s.watches.map Watch.origin) e)
    (s.addWatch e)
  exact ((h.addWatch s e).after hcalls).before (h.enlist _ _ _)

/-- A pass that comes to an endpoint brings something about if it begins a watch there whose check
does. -/
theorem ensureWatch (h : BroughtByReports J P E M) (s : Supervisor σ) (e : Endpoint) :
    Adds J P (s.watching e = false ∧ BringsBegun E M s e) s (s.ensureWatch e) := by
  unfold Supervisor.ensureWatch
  split
  · rename_i hwatched
    exact (Adds.same id Iff.rfl).congr (by simp [hwatched])
  · rename_i hfree
    exact (h.beginOnce s e).congr (by simp [hfree])

/-- Passes bring about what the checks of the watches do that they begin. -/
theorem passesWithin (h : BroughtByReports J P E M) {n : Nat} {s u : Supervisor σ}
    (hu : s.passesWithin n = some u) :
    Adds J P (∃ t e, Begins s t e ∧ BringsBegun E M t e) s u := by
  induction n generalizing s with
  | zero => simp [Supervisor.passesWithin] at hu
  | succ n ih =>
    simp only [Supervisor.passesWithin] at hu
    split at hu
    · rename_i hdue
      split at hu
      · rename_i hclosing
        cases hu
        refine (h.setRequested s false).congr ⟨False.elim, ?_⟩
        rintro ⟨t, e, hbegins, -⟩
        cases hbegins with
        | now _ hopen => exact absurd hclosing (by simp [hopen])
        | later _ hopen => exact absurd hclosing (by simp [hopen])
      · rename_i hopen
        have hopen : s.closing = false := by simpa using hopen
        let start := (s.setRequested false).releaseUnchosen (Strategy.selected s.strategy)
        have hstart : Adds J P False s start :=
          (h.setRequested s false).before (h.releaseUnchosen _ _)
        have hpass := hstart.after (Adds.foldl h.ensureWatch (Strategy.selected s.strategy) start)
        refine ((hpass.before (h.noteChecked _)).trans (ih hu)).congr ⟨?_, ?_⟩
        · rintro (⟨before, e, after, hchosen, hfree, hbrings⟩ | ⟨t, e, hbegins, hbrings⟩)
          · exact ⟨_, e, Begins.now hdue hopen hchosen rfl hfree, hbrings⟩
          · exact ⟨t, e, Begins.later hdue hopen hbegins, hbrings⟩
        · rintro ⟨t, e, hbegins, hbrings⟩
          cases hbegins with
          | now _ _ hchosen ht hfree =>
            subst ht
            exact Or.inl ⟨_, e, _, hchosen, hfree, hbrings⟩
          | later _ _ hlater => exact Or.inr ⟨t, e, hlater, hbrings⟩
    · rename_i hidle
      cases hu
      refine (Adds.same id Iff.rfl).congr ⟨False.elim, ?_⟩
      rintro ⟨t, e, hbegins, -⟩
      cases hbegins with
      | now hdue => exact absurd hdue hidle
      | later hdue => exact absurd hdue hidle

/-! ## Events -/

/-- A request brings about what the checks of the watches do that its passes begin. -/
theorem refresh (h : BroughtByReports J P E M) {s u : Supervisor σ} (hrest : s.refreshing = false)
    (hu : s.refresh = some u) :
    Adds J P (∃ t e, s.BeginsAtRequest t e ∧ BringsBegun E M t e) s u := by
  cases hclosing : s.closing with
  | true =>
    rw [refresh_of_closing hclosing] at hu
    cases hu
    exact (h.setRequested s true).congr (by simp [BeginsAtRequest, hclosing])
  | false =>
    obtain ⟨n, v, hn, rfl⟩ := (refresh_eq_some_iff hrest hclosing).mp hu
    have hbegin := (h.setRequested s true).before (h.setRefreshing _ true)
    refine ((hbegin.after (h.passesWithin hn)).before (h.setRefreshing _ false)).congr ?_
    simp [BeginsAtRequest, hclosing]

/-- A score brings about what entering it does, and what its passes do. -/
theorem deliver (h : BroughtByReports J P E M) {s u : Supervisor σ} (hrest : s.refreshing = false)
    {i : Nat} {w : Watch} (hw : s.watches[i]? = some w) {score : Float} {final : Bool}
    (hfinal : final = true → w.retired = true ∧ score = 0.0)
    (hu : s.deliver i score final = some u) :
    Adds J P ((E w score ∨ M i) ∨ ∃ t e, s.BeginsAtScore w score final t e ∧ BringsBegun E M t e)
      s u := by
  intro hs
  rcases deliver_cases hu with ⟨hnone, -⟩ | ⟨v, x, hv, rfl, ⟨hgone, -⟩ | ⟨-, hx⟩⟩
  · cases hnone.symm.trans hw
  · cases (h.there s hs).symm.trans hgone
  · obtain rfl : w = v := Option.some.inj (hw.symm.trans hv)
    have hentered := h.enterScore s w score final hfinal
    have hcarried := (keptByReports_carried s).enterScore s w score final (Carried.refl s)
    have hidle := (Steady.enterScore s w score final).refreshing.trans hrest
    have hheard : Adds J P (∃ t e, s.BeginsAtScore w score final t e ∧ BringsBegun E M t e)
        (s.enterScore w score final) x := by
      have hjudged := h.judge (s.enterScore w score final) w.origin score
      rcases consult_cases hx with ⟨hstill, rfl⟩ | ⟨hmoved, hx⟩
      · exact hjudged.congr (by simp [BeginsAtScore, hstill])
      · refine (hjudged.after (h.refresh hidle hx)).congr ?_
        simp [BeginsAtScore, hmoved]
    -- the watch is still there when it is marked
    obtain ⟨v, hv, -⟩ : ∃ v, x.watches[i]? = some v ∧ _ :=
      (keptByPasses_carried s).consult (keptByReports_carried s).judge hidle hx hcarried i w hw
    refine ((hentered.trans hheard).trans (h.markReported x i v hv)).congr ?_ hs
    rw [or_right_comm]

/-- An offer brings about what its passes do. -/
theorem offer (h : BroughtByReports J P E M) {s t : Supervisor σ} (hrest : s.refreshing = false)
    {candidates : List Endpoint} (ht : s.offer candidates = some t) :
    Adds J P (BringsAt E M s (.offer candidates)) s t := by
  obtain ⟨u, hu, rfl⟩ := offer_eq_some_iff.mp ht
  have hrefreshed := h.refresh (s := s.adopt candidates) hrest hu
  refine (((h.adopt s candidates).after hrefreshed).before (h.publish u)).congr ?_
  simp [bringsAt_iff, beginsAt_offer_iff]

/-- A report brings about what its score does, and what its passes do. -/
theorem report (h : BroughtByReports J P E M) {s t : Supervisor σ} (hrest : s.refreshing = false)
    {i : Nat} {score : Float} (ht : s.deliver i score false = some t) :
    Adds J P (BringsAt E M s (.report i score)) s t := by
  cases hw : s.watches[i]? with
  | none =>
    rw [Supervisor.deliver.eq_1, hw] at ht
    cases ht
    have hnothing (u : Supervisor σ) (e : Endpoint) : ¬ BeginsAt s (.report i score) u e := by
      intro hbegins
      cases hbegins with
      | report hfound _ => cases hw.symm.trans hfound
    refine (Adds.same id Iff.rfl).congr ?_
    simp [bringsAt_iff, Brings, hw, hnothing]
  | some w =>
    refine (h.deliver hrest hw (fun hfinal => by cases hfinal) ht).congr ?_
    have hcall : Brings E M s (.report i score) ↔ E w score ∨ M i := by simp [Brings, hw]
    rw [← hcall]
    simp [bringsAt_iff, beginsAt_report_iff hw, and_assoc]

/-- The end of a watch brings about what its last score does, and what its passes do. -/
theorem retire (h : BroughtByReports J P E M) {s t : Supervisor σ} (hrest : s.refreshing = false)
    {i : Nat} (ht : s.retire i = some t) : Adds J P (BringsAt E M s (.retire i)) s t := by
  rcases retire_cases ht with ⟨rfl, hended⟩ | ⟨w, hw, hlive, hdeliver⟩
  · have hlate (w : Watch) (hw : t.watches[i]? = some w) : w.retired ≠ false := by
      simp [hended w hw]
    have hnothing (u : Supervisor σ) (e : Endpoint) : ¬ BeginsAt t (.retire i) u e := by
      intro hbegins
      cases hbegins with
      | retire hw hlive _ => exact hlate _ hw hlive
    refine (Adds.same id Iff.rfl).congr ⟨False.elim, fun hbrings => ?_⟩
    rcases bringsAt_iff.mp hbrings with ⟨j, w, heq, hw, hlive, -⟩ | ⟨j, score, heq, -⟩ |
      ⟨u, e, hbegins, -⟩
    · cases heq
      exact hlate w hw hlive
    · cases heq
    · exact hnothing u e hbegins
  · have hend : (s.modifyWatch i Watch.retire).watches[i]? = some w.retire := by
      simp [modifyWatch, hw]
    have hdelivered := h.deliver (s := s.modifyWatch i Watch.retire) hrest hend
      (fun _ => ⟨rfl, rfl⟩) hdeliver
    refine ((h.retireWatch s i).after hdelivered).congr ?_
    simp [bringsAt_iff, hw, hlive, beginsAt_retire_iff hw hlive]

/-- An event brings about what its calls do, if every event without calls brings nothing about. -/
theorem step (h : BroughtByReports J P E M) {s t : Supervisor σ} {event : Event}
    (k : Step s event t) (hrest : s.refreshing = false)
    (hplain : event.calls = false → Adds J P False s t) : Adds J P (BringsAt E M s event) s t := by
  cases k with
  | offer hoffer => exact h.offer hrest hoffer
  | report hreport => exact h.report hrest hreport
  | retire _ hretire => exact h.retire hrest hretire
  | _ =>
    refine (hplain rfl).congr ⟨False.elim, fun hbrings => ?_⟩
    exact absurd (calls_of_bringsAt hbrings) (by simp [Event.calls])

end BroughtByReports

/-! ## Runs -/

section

variable {J P : Supervisor σ → Prop} {B : Supervisor σ → Event → Prop} {allowed : List Event}
  (hstep : ∀ s event t, event ∈ allowed → s.refreshing = false → Step s event t →
    Adds J P (B s event) s t)

include hstep

/-- A run of events that keep the invariant keeps it, and does not lose the property. -/
theorem Run.keeps_added {s t : Supervisor σ} {events : List Event} (h : Run s events t)
    (hevents : events ⊆ allowed) (hrest : s.refreshing = false) (hs : J s) :
    t.refreshing = false ∧ J t ∧ (P s → P t) := by
  induction h with
  | nil => exact ⟨hrest, hs, id⟩
  | @snoc events event t u _ k ih =>
    obtain ⟨hearlier, hlast⟩ := List.append_subset.mp hevents
    obtain ⟨hidle, ht, hkept⟩ := ih hearlier
    obtain ⟨hu, hP⟩ := hstep t event u (hlast (List.mem_singleton_self event)) hidle k ht
    exact ⟨k.refreshing hidle, hu, fun hPs => hP.mpr (Or.inl (hkept hPs))⟩

/-- A run brings about what one of its events does. -/
theorem Run.adds {s t : Supervisor σ} {events : List Event} (h : Run s events t)
    (hevents : events ⊆ allowed) (hrest : s.refreshing = false) :
    Adds J P (Occurs s events t B) s t := by
  intro hs
  refine ⟨(h.keeps_added hstep hevents hrest hs).2.1, ?_, ?_⟩
  · induction h with
    | nil => exact Or.inl
    | @snoc events event t u h k ih =>
      obtain ⟨hearlier, hlast⟩ := List.append_subset.mp hevents
      obtain ⟨hidle, ht, -⟩ := Run.keeps_added hstep h hearlier hrest hs
      intro hPu
      rcases (hstep t event u (hlast (List.mem_singleton_self event)) hidle k ht).2.mp hPu with
        hPt | hB
      · exact (ih hearlier hPt).imp id fun hoccurs => hoccurs.later (Run.single k)
      · exact Or.inr ⟨events, event, [], t, u, rfl, h, k, Run.nil, hB⟩
  · rintro (hPs | ⟨earlier, event, later, before, after, rfl, hbefore, hevent, hafter, hB⟩)
    · exact (h.keeps_added hstep hevents hrest hs).2.2 hPs
    · obtain ⟨hearlier, hrest'⟩ := List.append_subset.mp hevents
      obtain ⟨hin, hlater⟩ := List.cons_subset.mp hrest'
      obtain ⟨hidle, hJ, -⟩ := hbefore.keeps_added hstep hearlier hrest hs
      obtain ⟨hJ', hP⟩ := hstep before event after hin hidle hevent hJ
      exact (hafter.keeps_added hstep hlater (hevent.refreshing hidle) hJ').2.2
        (hP.mpr (Or.inr hB))

end

end HealthWatch.Supervisor
