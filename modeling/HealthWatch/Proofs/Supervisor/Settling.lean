import HealthWatch.Proofs.Strategy.Succession
import HealthWatch.Proofs.Supervisor.Reconciliation

/-!
# Passes come to an end

A check that reports while its watch is being begun may move the selection, and then another pass
follows, which begins other watches. No counter bounds this. What bounds it is that a watch is begun
for an endpoint that is selected at that moment: what its check reports moves the selection of a
bounded pool only to where it can move less often (`BoundedPool.slack`). A pass that leaves another
one due has thus lowered the rank of the strategy (`Winding`, `winding_passOnce`), so passes come to
an end for every strategy that has such a rank (`exists_passesWithin`), and all policies that do not
insist on passes have one (`Policy.settlesBy_slack`). Main statement: `passes_come_to_an_end`. With
checks that report twice it fails: `wavering_checks_never_settle`.
-/

set_option autoImplicit false

namespace HealthWatch

/-- A check calls at most once while its watch is being begun, and then reports a score of its own
watch. -/
def Terms.ReportsAtMostOnce (terms : Terms) : Prop :=
  ∀ before e, terms.greeting before e = [] ∨
    ∃ score, terms.greeting before e = [.report before.length score]

/-- When a selected endpoint reports, all others stay selected, and the rank does not rise; it falls
if the report asks for a pass. -/
structure Strategy.SettlesBy {σ : Type} [Strategy σ] (Inv : σ → Prop) (rank : σ → Nat) : Prop where
  judge : ∀ s e score, Inv s → Inv (Strategy.judge s e score).1
  others : ∀ s e score, Inv s → ∀ f ∈ Strategy.selected s, f ≠ e →
    f ∈ Strategy.selected (Strategy.judge s e score).1
  rank_le : ∀ s e score, Inv s → e ∈ Strategy.selected s →
    rank (Strategy.judge s e score).1 ≤ rank s
  rank_lt : ∀ s e score, Inv s → e ∈ Strategy.selected s →
    (Strategy.judge s e score).2 = true → rank (Strategy.judge s e score).1 < rank s

namespace Policy

/-! ## The rank of a policy -/

/-- A bound on how often reports of selected endpoints can still move the selection. -/
def slack : Policy → Nat
  | all _ => 0
  | bounded pool => pool.slack
  | recorded _ _ base => base.slack

/-- A policy that asks for a pass only if its selection has changed. -/
def Measured : Policy → Prop
  | all _ => True
  | bounded _ => True
  | recorded _ always base => always = false ∧ base.Measured

/-- A policy made from a quota is measured. -/
theorem measured_ofQuota (quota : Option Quota) : (ofQuota quota).Measured := by
  cases quota <;> exact trivial

/-- An offer leaves a policy measured. -/
theorem Measured.offer {p : Policy} (h : p.Measured) (candidates : List Endpoint) :
    (p.offer candidates).Measured := by
  induction p with
  | all state => exact trivial
  | bounded pool => exact trivial
  | recorded told always base ih => exact ⟨h.1, ih h.2⟩

/-- A report leaves a policy measured. -/
theorem Measured.judge {p : Policy} (h : p.Measured) (e : Endpoint) (score : Float) :
    (p.judge e score).1.Measured := by
  induction p with
  | all state => exact trivial
  | bounded pool => exact trivial
  | recorded told always base ih => exact ⟨h.1, ih h.2⟩

/-- A measured policy stays so, whatever it hears. -/
theorem measured_of_heard {p q : Policy} {candidates : List Endpoint} (h : p.Measured)
    (hq : Strategy.Heard p candidates q) : q.Measured := by
  induction hq with
  | first => exact h
  | offer _ candidates ih => exact ih.offer candidates
  | judge _ e score ih => exact ih.judge e score

/-- The moves that are left to a policy are bounded by the number of candidates. -/
theorem Sound.slack_le {p : Policy} {candidates : List Endpoint} (h : p.Sound candidates) :
    p.slack ≤ candidates.length * candidates.length + candidates.length := by
  induction p with
  | all state => exact Nat.zero_le _
  | bounded pool =>
    obtain ⟨rfl, hfilled⟩ := h
    exact hfilled.slack_le
  | recorded told always base ih => exact ih h

/-- The others stay selected when an endpoint reports. -/
theorem Sound.mem_selected_judge_of_ne {p : Policy} {candidates : List Endpoint}
    (h : p.Sound candidates) {e f : Endpoint} (hf : f ∈ p.selected) (hne : f ≠ e) (score : Float) :
    f ∈ (p.judge e score).1.selected := by
  induction p with
  | all state => exact hf
  | bounded pool => exact h.2.mem_selected_judge_of_ne hf hne score
  | recorded told always base ih => exact ih h hf

/-- A report of a selected endpoint leaves no more moves than before, and fewer if it asks for a
pass. -/
theorem Sound.slack_judge {p : Policy} {candidates : List Endpoint} (h : p.Sound candidates)
    (hmeasured : p.Measured) {e : Endpoint} (he : e ∈ p.selected) (score : Float) :
    (p.judge e score).1.slack ≤ p.slack ∧
      ((p.judge e score).2 = true → (p.judge e score).1.slack < p.slack) := by
  induction p with
  | all state => exact ⟨Nat.le_refl _, nofun⟩
  | bounded pool => exact h.2.slack_judge he score
  | recorded told always base ih =>
    obtain ⟨rfl, hbase⟩ := hmeasured
    exact ih h hbase he

/-- Measured policies settle by the number of moves that are left. -/
theorem settlesBy_slack (candidates : List Endpoint) :
    Strategy.SettlesBy (fun p : Policy => p.Sound candidates ∧ p.Measured) slack where
  judge _ e score h := ⟨h.1.judge e score, h.2.judge e score⟩
  others _ _ score h _ hf hne := h.1.mem_selected_judge_of_ne hf hne score
  rank_le _ _ score h he := (h.1.slack_judge h.2 he score).1
  rank_lt _ _ score h he := (h.1.slack_judge h.2 he score).2

end Policy

namespace Supervisor

variable {σ : Type} [Strategy σ]

/-! ## What the check of a new watch does -/

/-- A score reaches the strategy, unless the supervisor is gone. -/
theorem absorb_of_present {s : Supervisor σ} {i : Nat} {w : Watch} (hw : s.watches[i]? = some w)
    (hpresent : s.abandoned = false) (score : Float) (final : Bool) :
    (s.absorb i score final).strategy = (Strategy.judge s.strategy w.origin score).1 ∧
      (s.absorb i score final).requested =
        (s.requested || (Strategy.judge s.strategy w.origin score).2) := by
  obtain ⟨book, feed, outbox, hentered⟩ := enterScore_eq s w score final
  rw [absorb, hw]
  dsimp only
  rw [if_neg (by simp [hpresent]), hentered]
  exact ⟨rfl, rfl⟩

/-- A supervisor that is gone takes no score and just marks the watch. -/
theorem absorb_of_abandoned {s : Supervisor σ} {i : Nat} {w : Watch} (hw : s.watches[i]? = some w)
    (hgone : s.abandoned = true) (score : Float) (final : Bool) :
    s.absorb i score final = s.modifyWatch i Watch.markReported := by
  rw [absorb, hw]
  dsimp only
  rw [if_pos hgone]

/-- Beginning a watch leaves the strategy as it is, or lets it hear one report of the watch's
endpoint. -/
theorem beginOnce_cases {s : Supervisor σ} (honce : s.terms.ReportsAtMostOnce) (e : Endpoint) :
    ((s.beginOnce e).strategy = s.strategy ∧ (s.beginOnce e).requested = s.requested) ∨
      ∃ score, (s.beginOnce e).strategy = (Strategy.judge s.strategy e score).1 ∧
        (s.beginOnce e).requested = (s.requested || (Strategy.judge s.strategy e score).2) := by
  unfold beginOnce
  rcases honce (s.watches.map Watch.origin) e with hnone | ⟨score, hone⟩
  · rw [hnone]
    exact Or.inl ⟨rfl, rfl⟩
  · rw [hone, List.length_map]
    obtain ⟨w, hw, rfl, -⟩ := begun_watch s e []
    cases hgone : s.abandoned with
    | true =>
      have hkept : (s.addWatch w.origin).interject (.report s.watches.length score) =
          (s.addWatch w.origin).modifyWatch s.watches.length Watch.markReported :=
        absorb_of_abandoned hw hgone score false
      rw [List.foldl_cons, hkept]
      exact Or.inl ⟨rfl, rfl⟩
    | false => exact Or.inr ⟨score, absorb_of_present hw hgone score false⟩

/-! ## One pass -/

section

variable {Inv : σ → Prop} {rank : σ → Nat}

/-- Where a pass stands that has `rest` still to deal with: those of them that have no watch in
force are selected, and another pass is due only if the rank has fallen below `bound`. -/
structure Winding (Inv : σ → Prop) (rank : σ → Nat) (bound : Nat) (rest : List Endpoint)
    (s : Supervisor σ) : Prop where
  inv : Inv s.strategy
  once : s.terms.ReportsAtMostOnce
  wanted : ∀ e ∈ rest, e ∉ s.inForce → e ∈ Strategy.selected s.strategy
  low : rank s.strategy ≤ bound
  due : s.requested = true → rank s.strategy < bound

/-- A watch begun on a selected endpoint keeps the rank below its bound whenever its check makes
another pass due. -/
theorem Winding.beginOnce (hrank : Strategy.SettlesBy Inv rank) {bound : Nat} {e : Endpoint}
    {rest : List Endpoint} {s : Supervisor σ} (h : Winding Inv rank bound (e :: rest) s)
    (hfree : e ∉ s.inForce) : Winding Inv rank bound rest (s.beginOnce e) := by
  have honce : (s.beginOnce e).terms.ReportsAtMostOnce := by
    rw [(Steady.beginOnce s e).terms]
    exact h.once
  have he := h.wanted e List.mem_cons_self hfree
  have hothers : ∀ f ∈ rest, f ∉ (s.beginOnce e).inForce →
      f ∈ Strategy.selected s.strategy ∧ f ≠ e := by
    intro f hf hout
    rw [inForce_beginOnce, List.mem_append, not_or, List.mem_singleton] at hout
    exact ⟨h.wanted f (List.mem_cons_of_mem e hf) hout.1, hout.2⟩
  rcases beginOnce_cases h.once e with ⟨hstrategy, hrequested⟩ | ⟨score, hstrategy, hrequested⟩
  · refine ⟨?_, honce, ?_, ?_, ?_⟩
    · rw [hstrategy]
      exact h.inv
    · rw [hstrategy]
      exact fun f hf hout => (hothers f hf hout).1
    · rw [hstrategy]
      exact h.low
    · rw [hstrategy, hrequested]
      exact h.due
  · -- the endpoint is selected at this moment, so its report does not raise the rank
    have hle := hrank.rank_le s.strategy e score h.inv he
    refine ⟨?_, honce, ?_, ?_, ?_⟩
    · rw [hstrategy]
      exact hrank.judge s.strategy e score h.inv
    · rw [hstrategy]
      intro f hf hout
      obtain ⟨hselected, hne⟩ := hothers f hf hout
      exact hrank.others s.strategy e score h.inv f hselected hne
    · rw [hstrategy]
      exact Nat.le_trans hle h.low
    · rw [hstrategy, hrequested, Bool.or_eq_true]
      rintro (hdue | hmoved)
      · exact Nat.lt_of_le_of_lt hle (h.due hdue)
      · exact Nat.lt_of_lt_of_le (hrank.rank_lt s.strategy e score h.inv he hmoved) h.low

/-- A pass that goes on by an endpoint stands as it stood, with one endpoint less to deal with. -/
theorem Winding.ensureWatch (hrank : Strategy.SettlesBy Inv rank) {bound : Nat} {e : Endpoint}
    {rest : List Endpoint} {s : Supervisor σ} (h : Winding Inv rank bound (e :: rest) s) :
    Winding Inv rank bound rest (s.ensureWatch e) := by
  unfold Supervisor.ensureWatch
  split
  · exact ⟨h.inv, h.once, fun f hf => h.wanted f (List.mem_cons_of_mem e hf), h.low, h.due⟩
  · rename_i hfree
    exact h.beginOnce hrank (by simpa [watching] using hfree)

/-- A pass that has dealt with everything has lowered the rank if another one is due. -/
theorem Winding.foldl (hrank : Strategy.SettlesBy Inv rank) {bound : Nat} {rest : List Endpoint}
    {s : Supervisor σ} (h : Winding Inv rank bound rest s) :
    Winding Inv rank bound [] (rest.foldl Supervisor.ensureWatch s) := by
  induction rest generalizing s with
  | nil => exact h
  | cons e rest ih => exact ih (h.ensureWatch hrank)

/-- A pass does not raise the rank, and lowers it if it leaves another pass due. -/
theorem winding_passOnce (hrank : Strategy.SettlesBy Inv rank) {s : Supervisor σ}
    (hinv : Inv s.strategy) (honce : s.terms.ReportsAtMostOnce) (hidle : s.requested = false) :
    Winding Inv rank (rank s.strategy) [] s.passOnce := by
  have hstart : Winding Inv rank (rank s.strategy) (Strategy.selected s.strategy)
      (s.releaseUnchosen (Strategy.selected s.strategy)) := by
    refine ⟨hinv, honce, fun _ he _ => he, Nat.le_refl _, fun hdue => ?_⟩
    cases hidle.symm.trans hdue
  have hend := hstart.foldl hrank
  exact ⟨hend.inv, hend.once, nofun, hend.low, hend.due⟩

/-! ## All passes -/

/-- Passes come to an end after at most as many of them as the rank says, and one more. -/
theorem exists_passesWithin (hrank : Strategy.SettlesBy Inv rank) {n : Nat} {s : Supervisor σ}
    (hinv : Inv s.strategy) (honce : s.terms.ReportsAtMostOnce)
    (hlow : s.requested = true → rank s.strategy < n) : ∃ t, s.passesWithin (n + 1) = some t := by
  induction n generalizing s with
  | zero =>
    have hidle : s.requested = false := by
      cases hdue : s.requested with
      | false => rfl
      | true => exact absurd (hlow hdue) (Nat.not_lt_zero _)
    exact ⟨s, by simp [passesWithin, hidle]⟩
  | succ n ih =>
    rw [passesWithin]
    split
    · rename_i hdue
      split
      · exact ⟨_, rfl⟩
      -- a pass that asks for another has lowered the rank
      · have hpass := winding_passOnce hrank (s := s.setRequested false) hinv honce rfl
        refine ih hpass.inv hpass.once fun hagain => ?_
        exact Nat.lt_of_lt_of_le (hpass.due hagain) (Nat.le_of_lt_succ (hlow hdue))
    · exact ⟨s, rfl⟩

/-- A request comes to an end. -/
theorem exists_refresh (hrank : Strategy.SettlesBy Inv rank) {s : Supervisor σ}
    (hinv : Inv s.strategy) (honce : s.terms.ReportsAtMostOnce) : ∃ t, s.refresh = some t := by
  cases hrest : s.refreshing with
  | true => exact ⟨_, refresh_of_refreshing hrest⟩
  | false =>
    cases hclosing : s.closing with
    | true => exact ⟨_, refresh_of_closing hclosing⟩
    | false =>
      obtain ⟨t, ht⟩ := exists_passesWithin hrank (n := rank s.strategy + 1)
        (s := (s.setRequested true).setRefreshing true) hinv honce fun _ => Nat.lt_succ_self _
      exact ⟨_, (refresh_eq_some_iff hrest hclosing).mpr ⟨_, t, ht, rfl⟩⟩

/-- A score is taken in, whosever it is. -/
theorem exists_deliver (hrank : Strategy.SettlesBy Inv rank) {s : Supervisor σ}
    (hinv : Inv s.strategy) (honce : s.terms.ReportsAtMostOnce) (i : Nat) (score : Float)
    (final : Bool) : ∃ t, s.deliver i score final = some t := by
  rw [deliver.eq_1]
  cases s.watches[i]? with
  | none => exact ⟨s, rfl⟩
  | some w =>
    obtain ⟨book, feed, outbox, hentered⟩ := enterScore_eq s w score final
    have hconsult : ∃ u, (s.enterScore w score final).consult w.origin score = some u := by
      rw [consult.eq_1, hentered]
      dsimp only
      split
      · refine exists_refresh hrank ?_ honce
        exact hrank.judge s.strategy w.origin score hinv
      · exact ⟨_, rfl⟩
    obtain ⟨u, hu⟩ := hconsult
    cases hgone : s.abandoned with
    | true => exact ⟨_, rfl⟩
    | false => exact ⟨u.modifyWatch i Watch.markReported, by simp [hu]⟩

/-- The end of a watch is taken in. -/
theorem exists_retire (hrank : Strategy.SettlesBy Inv rank) {s : Supervisor σ}
    (hinv : Inv s.strategy) (honce : s.terms.ReportsAtMostOnce) (i : Nat) :
    ∃ t, s.retire i = some t := by
  unfold retire
  cases s.watches[i]? with
  | none => exact ⟨s, rfl⟩
  | some w =>
    dsimp only
    split
    · exact ⟨s, rfl⟩
    · exact exists_deliver hrank (s := s.modifyWatch i Watch.retire) hinv honce i 0.0 true

end

/-! ## Main statement -/

/-- If each check reports at most one score while its watch is being begun, whatever score that is,
every request, offer, report and end of a watch comes to an end, and the passes are at most one more
than the square of the number of candidates and that number. -/
theorem passes_come_to_an_end (quota : Option Quota) {candidates : List Endpoint}
    {s : Supervisor Policy}
    (hheard : Strategy.Heard (Policy.ofQuota quota) candidates s.strategy)
    (honce : s.terms.ReportsAtMostOnce) :
    (∃ t, s.passesWithin (candidates.length * candidates.length + candidates.length + 2) =
        some t) ∧
      (∃ t, s.refresh = some t) ∧ (∀ offered, ∃ t, s.offer offered = some t) ∧
      (∀ i score, ∃ t, s.report i score = some t) ∧ ∀ i, ∃ t, s.retire i = some t := by
  have hsound := Policy.sound_of_heard (Policy.unused_ofQuota quota) hheard
  have hmeasured := Policy.measured_of_heard (Policy.measured_ofQuota quota) hheard
  have hrank := Policy.settlesBy_slack candidates
  refine ⟨?_, exists_refresh hrank ⟨hsound, hmeasured⟩ honce, fun offered => ?_, fun i score => ?_,
    fun i => ?_⟩
  · refine exists_passesWithin hrank ⟨hsound, hmeasured⟩ honce fun _ => ?_
    exact Nat.lt_succ_of_le hsound.slack_le
  · obtain ⟨u, hu⟩ := exists_refresh (s := s.adopt offered) (Policy.settlesBy_slack offered)
      ⟨hsound.offer offered, hmeasured.offer offered⟩ honce
    exact ⟨_, offer_eq_some_iff.mpr ⟨u, hu, rfl⟩⟩
  · exact exists_deliver hrank ⟨hsound, hmeasured⟩ honce i score false
  · exact exists_retire hrank ⟨hsound, hmeasured⟩ honce i

/-- Two endpoints share one place. Each reports a failure when its first watch is begun, and
recovers when its second one is: after three watches the passes are over, and so they are after
whatever comes next. -/
theorem passes_end_with_the_third_watch :
    let a : Endpoint := { host := "a" }
    let b : Endpoint := { host := "b" }
    let terms : Terms :=
      { greeting := fun before e => [.report before.length (if e ∈ before then 1.0 else 0.0)] }
    ∃ s, Run (fresh terms (Policy.ofQuota (some (.count 1)))) [.offer [a, b]] s ∧
      s.watches.map Watch.origin = [a, b, a] ∧ (∃ t, s.passesWithin 8 = some t) ∧
      (∀ offered, ∃ t, s.offer offered = some t) ∧ ∀ i score, ∃ t, s.report i score = some t := by
  intro a b terms
  obtain ⟨s, h, hwatches, hcandidates⟩ :
      ∃ s, Run (fresh terms (Policy.ofQuota (some (.count 1)))) [.offer [a, b]] s ∧
        s.watches.map Watch.origin = [a, b, a] ∧ s.candidates = [a, b] :=
    exists_run_of_replay (n := 9) rfl (by decide)
  have hheard := h.heard
  rw [hcandidates] at hheard
  have honce : s.terms.ReportsAtMostOnce := by
    rw [h.terms]
    exact fun _ _ => Or.inr ⟨_, rfl⟩
  obtain ⟨hpasses, -, hoffer, hreport, -⟩ := passes_come_to_an_end (some (.count 1)) hheard honce
  exact ⟨s, h, hwatches, hpasses, hoffer, hreport⟩

/-! ## Two reports are one too many

What the rank rests on is lost when a check reports twice: its first report may put its own endpoint
out of the selection, and then the second one, if good, takes the mark away again without a move.
-/

/-- Each check reports a failure and then a recovery while its watch is being begun. -/
def wavering : Terms where
  greeting before _ := [.report before.length 0.0, .report before.length 1.0]

/-- The check of a wavering endpoint lets the strategy hear a failure and then a recovery. -/
theorem beginOnce_of_wavering {s : Supervisor σ} (hterms : s.terms = wavering)
    (hpresent : s.abandoned = false) (e : Endpoint) :
    let failed := Strategy.judge s.strategy e 0.0
    let recovered := Strategy.judge failed.1 e 1.0
    (s.beginOnce e).strategy = recovered.1 ∧
      (s.beginOnce e).requested = (s.requested || failed.2 || recovered.2) := by
  obtain ⟨w, hw, rfl, -⟩ := begun_watch s e []
  -- the first report leaves the watch on its endpoint
  obtain ⟨v, hv, hkept, -⟩ := begun_watch s w.origin [.report s.watches.length 0.0]
  change (s.addWatch w.origin).watches[s.watches.length]? = some w at hw
  change ((s.addWatch w.origin).absorb s.watches.length 0.0 false).watches[s.watches.length]? =
    some v at hv
  obtain ⟨hfailed, hdue⟩ := absorb_of_present hw hpresent 0.0 false
  have hstill := (Steady.absorb (s.addWatch w.origin) s.watches.length 0.0 false).abandoned
  obtain ⟨hrecovered, hagain⟩ := absorb_of_present hv (hstill.trans hpresent) 1.0 false
  rw [hkept, hfailed] at hrecovered hagain
  rw [hdue] at hagain
  rw [beginOnce, hterms]
  dsimp only [wavering]
  rw [List.length_map]
  exact ⟨hrecovered, hagain⟩

/-- Two candidates for one place, which the given one has, and none is marked. -/
def oneOfTwo (e : Endpoint) : Policy :=
  .bounded { quota := .count 1, candidates := [{ host := "a" }, { host := "b" }], selected := [e] }

/-- A failure and a recovery of the one selected hand the place to the other one. -/
theorem judge_oneOfTwo {e : Endpoint} (he : e = { host := "a" } ∨ e = { host := "b" }) :
    ∃ f : Endpoint, (f = { host := "a" } ∨ f = { host := "b" }) ∧ f ≠ e ∧
      (Strategy.judge (oneOfTwo e) e 0.0).2 = true ∧
      (Strategy.judge (Strategy.judge (oneOfTwo e) e 0.0).1 e 1.0).1 = oneOfTwo f := by
  rcases he with rfl | rfl
  · exact ⟨{ host := "b" }, Or.inr rfl, by decide, by decide, rfl⟩
  · exact ⟨{ host := "a" }, Or.inl rfl, by decide, by decide, rfl⟩

/-- A pass is due that begins a watch on the one selected. -/
structure Restless (s : Supervisor Policy) : Prop where
  terms : s.terms = wavering
  present : s.abandoned = false
  opened : s.closing = false
  due : s.requested = true
  selects : ∃ e : Endpoint, (e = { host := "a" } ∨ e = { host := "b" }) ∧ e ∉ s.inForce ∧
    s.strategy = oneOfTwo e

/-- A pass of a restless supervisor leaves it restless. -/
theorem Restless.passOnce {s : Supervisor Policy} (h : s.Restless) :
    (s.setRequested false).passOnce.Restless := by
  obtain ⟨e, he, hfree, hstrategy⟩ := h.selects
  obtain ⟨f, hf, hne, hmoved, hnext⟩ := judge_oneOfTwo he
  have hsteady := Steady.passOnce (s.setRequested false)
  have hunwatched : ((s.setRequested false).releaseUnchosen [e]).watching e = false := by
    rw [watching_eq_false, inForce_releaseUnchosen]
    exact fun hin => hfree (List.mem_filter.mp hin).1
  have hpass : (s.setRequested false).passOnce =
      (((s.setRequested false).releaseUnchosen [e]).beginOnce e).noteChecked := by
    have hchosen : Strategy.selected (s.setRequested false).strategy = [e] :=
      congrArg Strategy.selected hstrategy
    rw [Supervisor.passOnce, hchosen, List.foldl_cons, List.foldl_nil, Supervisor.ensureWatch,
      hunwatched]
    rfl
  obtain ⟨hjudged, hagain⟩ := beginOnce_of_wavering
    (s := (s.setRequested false).releaseUnchosen [e]) h.terms h.present e
  have hheard : ((s.setRequested false).releaseUnchosen [e]).strategy = oneOfTwo e := hstrategy
  rw [hheard] at hjudged hagain
  refine ⟨hsteady.terms.trans h.terms, hsteady.abandoned.trans h.present,
    hsteady.closing.trans h.opened, ?_, f, hf, ?_, ?_⟩
  · rw [hpass]
    refine hagain.trans ?_
    rw [hmoved, Bool.or_true, Bool.true_or]
  · rw [hpass]
    show f ∉ (((s.setRequested false).releaseUnchosen [e]).beginOnce e).inForce
    rw [inForce_beginOnce, inForce_releaseUnchosen]
    simp [hne]
  · rw [hpass]
    exact hjudged.trans hnext

/-- A restless supervisor does not come to rest within any bound. -/
theorem Restless.passesWithin {s : Supervisor Policy} (h : s.Restless) (n : Nat) :
    s.passesWithin n = none := by
  induction n generalizing s with
  | zero => rfl
  | succ n ih =>
    rw [Supervisor.passesWithin, if_pos h.due, if_neg (by simp [h.opened])]
    exact ih h.passOnce

/-- Two wavering endpoints that share one place keep the passes going for ever. -/
theorem wavering_checks_never_settle :
    (fresh wavering (Policy.ofQuota (some (.count 1)))).offer [{ host := "a" }, { host := "b" }] =
      none := by
  refine Option.eq_none_iff_forall_ne_some.mpr fun t ht => ?_
  obtain ⟨u, hu, -⟩ := offer_eq_some_iff.mp ht
  obtain ⟨n, v, hv, -⟩ := (refresh_eq_some_iff rfl rfl).mp hu
  have hrestless : Restless ((((fresh wavering (Policy.ofQuota (some (.count 1)))).adopt
      [{ host := "a" }, { host := "b" }]).setRequested true).setRefreshing true) :=
    ⟨rfl, rfl, rfl, rfl, { host := "a" }, Or.inl rfl, nofun, rfl⟩
  rw [hrestless.passesWithin n] at hv
  cases hv

end Supervisor

end HealthWatch
