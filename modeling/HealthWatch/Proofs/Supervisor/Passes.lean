import HealthWatch.Supervisor

/-!
# Calls while passes are under way

A call that arrives while passes are under way makes none of its own: it does its work at once and
leaves the request for a pass behind. So every such call comes to an end, and what it does is a
plain function of the state: `takeIn` for new candidates, `absorb` for a score. With these a whole
pass is a plain function too, `passOnce`, and the passes are its repetition until no request is
left. Main statements: `pass_eq` for one pass, `passes_eq_some_iff` for all of them, and
`refresh_eq_some_iff` for a request made while no pass is under way.
-/

set_option autoImplicit false

namespace HealthWatch.Supervisor

variable {σ : Type} [Strategy σ]

/-! ## What a call does at once -/

/-- The strategy hears a score; that it asks for a pass is noted. -/
def heed (s : Supervisor σ) (e : Endpoint) (score : Float) : Supervisor σ :=
  let judged := Strategy.judge s.strategy e score
  (s.setStrategy judged.1).setRequested (s.requested || judged.2)

/-- A watch's score enters the book and is heard by the strategy. -/
def absorb (s : Supervisor σ) (i : Nat) (score : Float) (final : Bool) : Supervisor σ :=
  match s.watches[i]? with
  | none => s
  | some w =>
    (if s.abandoned then s else (s.enterScore w score final).heed w.origin score).modifyWatch i
      Watch.markReported

/-- New candidates are taken, a pass is asked for, and what is healthy among them is published. -/
def takeIn (s : Supervisor σ) (candidates : List Endpoint) : Supervisor σ :=
  ((s.adopt candidates).setRequested true).republishIf s.started

/-- What a call does while passes are under way. -/
def interject (s : Supervisor σ) : Call → Supervisor σ
  | .offer candidates => s.takeIn candidates
  | .report i score => s.absorb i score false

/-- A watch is begun; its check makes its calls before the watch is in force. -/
def beginOnce (s : Supervisor σ) (e : Endpoint) : Supervisor σ :=
  ((s.terms.greeting (s.watches.map Watch.origin) e).foldl interject (s.addWatch e)).enlist e
    s.watches.length

/-- A watch is begun on an endpoint that has none in force. -/
def ensureWatch (s : Supervisor σ) (e : Endpoint) : Supervisor σ :=
  if s.watching e then s else s.beginOnce e

/-- A pass while none of the calls within it makes passes. -/
def passOnce (s : Supervisor σ) : Supervisor σ :=
  let chosen := Strategy.selected s.strategy
  (chosen.foldl ensureWatch (s.releaseUnchosen chosen)).noteChecked

/-- Passes until no request is left, with a bound on how often to look. -/
def passesWithin (s : Supervisor σ) : Nat → Option (Supervisor σ)
  | 0 => none
  | n + 1 =>
    if s.requested then
      if s.closing then some (s.setRequested false)
      else (s.setRequested false).passOnce.passesWithin n
    else some s

/-! ## What publishing and entering a score change -/

omit [Strategy σ] in
/-- A publication changes the feed and the outbox only. -/
theorem republish_eq (s : Supervisor σ) :
    ∃ feed outbox, s.republish = { s with published := feed, outbox := outbox } := by
  unfold republish
  dsimp only
  split
  · exact ⟨_, _, rfl⟩
  · exact ⟨s.published, s.outbox, rfl⟩

omit [Strategy σ] in
/-- A publication that may be made changes the feed and the outbox only. -/
theorem republishIf_eq (s : Supervisor σ) (reason : Bool) :
    ∃ feed outbox, s.republishIf reason = { s with published := feed, outbox := outbox } := by
  cases reason with
  | false => exact ⟨s.published, s.outbox, rfl⟩
  | true => exact republish_eq s

omit [Strategy σ] in
/-- What neither the feed nor the outbox bears on, a publication keeps. -/
theorem republishIf_keeps {P : Supervisor σ → Prop}
    (hP : ∀ s feed outbox, P s → P { s with published := feed, outbox := outbox })
    {s : Supervisor σ} (hs : P s) (reason : Bool) : P (s.republishIf reason) := by
  obtain ⟨feed, outbox, heq⟩ := republishIf_eq s reason
  rw [heq]
  exact hP s feed outbox hs

omit [Strategy σ] in
/-- A score that is entered changes the book, the feed and the outbox only. -/
theorem enterScore_eq (s : Supervisor σ) (w : Watch) (score : Float) (final : Bool) :
    ∃ book feed outbox, s.enterScore w score final =
      { s with health := book, published := feed, outbox := outbox } := by
  unfold enterScore
  split
  · exact ⟨s.health, s.published, s.outbox, rfl⟩
  · split
    · obtain ⟨feed, outbox, h⟩ :=
        republishIf_eq (s.forget w.origin) (s.health.isHealthy w.origin)
      exact ⟨s.health.forget w.origin, feed, outbox, h⟩
    · obtain ⟨feed, outbox, h⟩ :=
        republishIf_eq (s.record w.origin score) (s.health.turns w.origin score)
      exact ⟨s.health.record w.origin score, feed, outbox, h⟩

/-! ## What stays the same -/

/-- Two states agree on everything that only the operations themselves change, and no call. -/
structure Steady (s t : Supervisor σ) : Prop where
  terms : t.terms = s.terms
  refreshing : t.refreshing = s.refreshing
  started : t.started = s.started
  closing : t.closing = s.closing
  closed : t.closed = s.closed
  abandoned : t.abandoned = s.abandoned
  feedClosed : t.published.closed = s.published.closed

namespace Steady

omit [Strategy σ] in
/-- Nothing has changed. -/
theorem refl (s : Supervisor σ) : Steady s s :=
  ⟨rfl, rfl, rfl, rfl, rfl, rfl, rfl⟩

omit [Strategy σ] in
/-- What stays the same twice stays the same. -/
theorem trans {s t u : Supervisor σ} (h : Steady s t) (k : Steady t u) : Steady s u :=
  ⟨k.terms.trans h.terms, k.refreshing.trans h.refreshing, k.started.trans h.started,
    k.closing.trans h.closing, k.closed.trans h.closed, k.abandoned.trans h.abandoned,
    k.feedClosed.trans h.feedClosed⟩

omit [Strategy σ] in
/-- A fold keeps what each of its steps keeps. -/
theorem foldl {α : Type} {f : Supervisor σ → α → Supervisor σ} (hf : ∀ s a, Steady s (f s a))
    (l : List α) (s : Supervisor σ) : Steady s (l.foldl f s) :=
  List.foldlRecOn l f (refl s) fun t ht a _ => ht.trans (hf t a)

omit [Strategy σ] in
/-- A publication does not close the feed, and changes nothing that only the operations change. -/
theorem republish (s : Supervisor σ) : Steady s s.republish := by
  unfold Supervisor.republish
  dsimp only
  split
  · refine ⟨rfl, rfl, rfl, rfl, rfl, rfl, ?_⟩
    unfold Feed.announce
    split <;> rfl
  · exact refl s

omit [Strategy σ] in
/-- Nor does a publication that is made for a reason only. -/
theorem republishIf (s : Supervisor σ) (reason : Bool) : Steady s (s.republishIf reason) := by
  cases reason
  · exact refl s
  · exact republish s

omit [Strategy σ] in
/-- Entering a score changes the book and what is published, and nothing that only the operations
change. -/
theorem enterScore (s : Supervisor σ) (w : Watch) (score : Float) (final : Bool) :
    Steady s (s.enterScore w score final) := by
  have hforget : Steady s (s.forget w.origin) := ⟨rfl, rfl, rfl, rfl, rfl, rfl, rfl⟩
  have hrecord : Steady s (s.record w.origin score) := ⟨rfl, rfl, rfl, rfl, rfl, rfl, rfl⟩
  unfold Supervisor.enterScore
  split
  · exact refl s
  · split
    · exact hforget.trans (republishIf _ _)
    · exact hrecord.trans (republishIf _ _)

/-- A strategy that hears a score changes nothing that only the operations change. -/
theorem heed (s : Supervisor σ) (e : Endpoint) (score : Float) : Steady s (s.heed e score) :=
  ⟨rfl, rfl, rfl, rfl, rfl, rfl, rfl⟩

/-- A report within a pass changes nothing that only the operations change. -/
theorem absorb (s : Supervisor σ) (i : Nat) (score : Float) (final : Bool) :
    Steady s (s.absorb i score final) := by
  have hmark (t : Supervisor σ) : Steady t (t.modifyWatch i Watch.markReported) :=
    ⟨rfl, rfl, rfl, rfl, rfl, rfl, rfl⟩
  unfold Supervisor.absorb
  split
  · exact refl s
  · split
    · exact hmark s
    · exact ((enterScore s _ score final).trans (heed _ _ score)).trans (hmark _)

/-- New candidates within a pass change nothing that only the operations change. -/
theorem takeIn (s : Supervisor σ) (candidates : List Endpoint) :
    Steady s (s.takeIn candidates) := by
  have hadopt : Steady s ((s.adopt candidates).setRequested true) :=
    ⟨rfl, rfl, rfl, rfl, rfl, rfl, rfl⟩
  exact hadopt.trans (republishIf _ _)

/-- A call within a pass changes nothing that only the operations change. -/
theorem interject (s : Supervisor σ) (call : Call) : Steady s (s.interject call) := by
  cases call with
  | offer candidates => exact takeIn s candidates
  | report i score => exact absorb s i score false

/-- To begin a watch, with the calls of its check, changes nothing that only the operations change.
-/
theorem beginOnce (s : Supervisor σ) (e : Endpoint) : Steady s (s.beginOnce e) := by
  have hadd : Steady s (s.addWatch e) := ⟨rfl, rfl, rfl, rfl, rfl, rfl, rfl⟩
  have henlist (t : Supervisor σ) : Steady t (t.enlist e s.watches.length) :=
    ⟨rfl, rfl, rfl, rfl, rfl, rfl, rfl⟩
  exact (hadd.trans (foldl interject _ _)).trans (henlist _)

/-- A pass that comes to an endpoint changes nothing that only the operations change. -/
theorem ensureWatch (s : Supervisor σ) (e : Endpoint) : Steady s (s.ensureWatch e) := by
  unfold Supervisor.ensureWatch
  split
  · exact refl s
  · exact beginOnce s e

/-- A pass changes nothing that only the operations change. -/
theorem passOnce (s : Supervisor σ) : Steady s s.passOnce := by
  have hrelease : Steady s (s.releaseUnchosen (Strategy.selected s.strategy)) :=
    ⟨rfl, rfl, rfl, rfl, rfl, rfl, rfl⟩
  have hnote (t : Supervisor σ) : Steady t t.noteChecked := ⟨rfl, rfl, rfl, rfl, rfl, rfl, rfl⟩
  exact (hrelease.trans (foldl ensureWatch _ _)).trans (hnote _)

/-- Any number of passes change nothing that only the operations change. -/
theorem passesWithin {n : Nat} {s t : Supervisor σ} (h : s.passesWithin n = some t) :
    Steady s t := by
  have hrequested (u : Supervisor σ) : Steady u (u.setRequested false) :=
    ⟨rfl, rfl, rfl, rfl, rfl, rfl, rfl⟩
  induction n generalizing s with
  | zero => simp [Supervisor.passesWithin] at h
  | succ n ih =>
    simp only [Supervisor.passesWithin] at h
    split at h
    · split at h
      · cases h
        exact hrequested _
      · exact ((hrequested s).trans (passOnce _)).trans (ih h)
    · cases h
      exact refl _

end Steady

/-! ## Calls make no passes of their own -/

/-- While passes are under way no others are entered. -/
theorem enterPasses_of_refreshing {s : Supervisor σ} (h : s.refreshing = true) :
    s.enterPasses = some s := by
  rw [enterPasses.eq_1]
  simp [h]

/-- While passes are under way a request is noted and nothing else. -/
theorem refresh_of_refreshing {s : Supervisor σ} (h : s.refreshing = true) :
    s.refresh = some (s.setRequested true) := by
  rw [refresh.eq_1]
  exact enterPasses_of_refreshing h

/-- A score that is heard while passes are under way is heard at once, and that it asks for a pass
is noted. -/
theorem consult_of_refreshing {s : Supervisor σ} (h : s.refreshing = true) (e : Endpoint)
    (score : Float) : s.consult e score = some (s.heed e score) := by
  rw [consult.eq_1]
  cases hmoved : (Strategy.judge s.strategy e score).2 with
  | false => simp [hmoved, heed, setRequested, setStrategy]
  | true =>
    have hset : (s.setStrategy (Strategy.judge s.strategy e score).1).refreshing = true := h
    simp [hmoved, heed, refresh_of_refreshing hset]

/-- A score that comes while passes are under way is taken in at once. -/
theorem deliver_of_refreshing {s : Supervisor σ} (h : s.refreshing = true) (i : Nat)
    (score : Float) (final : Bool) : s.deliver i score final = some (s.absorb i score final) := by
  rw [deliver.eq_1, absorb]
  cases s.watches[i]? with
  | none => rfl
  | some w =>
    have hentered : (s.enterScore w score final).refreshing = true :=
      (Steady.enterScore s w score final).refreshing.trans h
    cases hgone : s.abandoned with
    | true => rfl
    | false => simp [consult_of_refreshing hentered]

/-- New candidates that come while passes are under way are taken at once. -/
theorem offer_of_refreshing {s : Supervisor σ} (h : s.refreshing = true)
    (candidates : List Endpoint) : s.offer candidates = some (s.takeIn candidates) := by
  have hadopt : (s.adopt candidates).refreshing = true := h
  rw [offer.eq_1, refresh_of_refreshing hadopt]
  rfl

/-- Every call that comes while passes are under way is done at once. -/
theorem answer_of_refreshing {s : Supervisor σ} (h : s.refreshing = true) (call : Call) :
    s.answer call = some (s.interject call) := by
  cases call with
  | offer candidates =>
    rw [answer.eq_1]
    exact offer_of_refreshing h candidates
  | report i score =>
    rw [answer.eq_2]
    exact deliver_of_refreshing h i score false

omit [Strategy σ] in
/-- A fold of steps that all come to an end while passes are under way is a plain fold. -/
theorem foldlM_of_refreshing {α : Type} {f : Supervisor σ → α → Option (Supervisor σ)}
    {g : Supervisor σ → α → Supervisor σ} (hg : ∀ s a, Steady s (g s a))
    (hf : ∀ s a, s.refreshing = true → f s a = some (g s a)) (l : List α) {s : Supervisor σ}
    (h : s.refreshing = true) : l.foldlM f s = some (l.foldl g s) := by
  induction l generalizing s with
  | nil => rfl
  | cons a l ih =>
    rw [List.foldlM_cons, hf s a h]
    exact ih ((hg s a).refreshing.trans h)

/-- A watch that a pass begins is begun at once, with the calls of its check. -/
theorem beginWatch_of_refreshing {s : Supervisor σ} (h : s.refreshing = true) (e : Endpoint) :
    s.beginWatch e = some (s.beginOnce e) := by
  have hadd : (s.addWatch e).refreshing = true := h
  rw [beginWatch.eq_1, foldlM_of_refreshing Steady.interject
    (fun s call hs => answer_of_refreshing hs call) _ hadd]
  rfl

/-- A pass comes to an end, whatever its calls ask for. -/
theorem pass_eq {s : Supervisor σ} (h : s.refreshing = true) (hopen : s.closing = false) :
    s.pass = some s.passOnce := by
  have hstep (t : Supervisor σ) (e : Endpoint) (ht : t.refreshing = true) :
      (if t.watching e = true then some t else t.beginWatch e) = some (t.ensureWatch e) := by
    unfold ensureWatch
    split
    · rfl
    · exact beginWatch_of_refreshing ht e
  have hrelease : (s.releaseUnchosen (Strategy.selected s.strategy)).refreshing = true := h
  rw [pass.eq_1, hopen]
  simp only [Bool.false_eq_true, if_false]
  rw [foldlM_of_refreshing Steady.ensureWatch hstep _ hrelease]
  rfl

/-! ## All passes -/

/-- Passes that come to an end within a bound come to an end. -/
theorem passes_of_passesWithin {n : Nat} {s t : Supervisor σ} (h : s.refreshing = true)
    (hn : s.passesWithin n = some t) : s.passes = some t := by
  induction n generalizing s with
  | zero => simp [passesWithin] at hn
  | succ n ih =>
    rw [passes.eq_1]
    simp only [passesWithin] at hn
    split at hn
    · rename_i hdue
      rw [if_pos hdue]
      split at hn
      · rename_i hclosing
        rw [if_pos hclosing]
        exact hn
      · rename_i hopen
        have hset : (s.setRequested false).refreshing = true := h
        rw [if_neg hopen, pass_eq hset (by simpa [setRequested] using hopen)]
        exact ih ((Steady.passOnce _).refreshing.trans hset) hn
    · rename_i hrest
      rw [if_neg hrest]
      exact hn

omit [Strategy σ] in
/-- What a fold of steps gives while passes are under way, if each step gives what a plain function
does. -/
theorem eq_foldl_of_foldlM {α : Type} {f : Supervisor σ → α → Option (Supervisor σ)}
    {g : Supervisor σ → α → Supervisor σ} (hg : ∀ s a, Steady s (g s a))
    (hf : ∀ s a r, f s a = some r → s.refreshing = true → r = g s a) (l : List α)
    {s r : Supervisor σ} (h : s.refreshing = true) (hr : l.foldlM f s = some r) :
    r = l.foldl g s := by
  induction l generalizing s with
  | nil => exact (Option.some.inj hr).symm
  | cons a l ih =>
    rw [List.foldlM_cons] at hr
    obtain ⟨t, ht, hr⟩ := Option.bind_eq_some_iff.mp hr
    obtain rfl := hf s a t ht h
    exact ih ((hg s a).refreshing.trans h) hr

/-! The operations are a least fixed point together, so what they give is shown for whatever stands
in for the operations that each of them uses. -/

/-- If calls do what they do within a pass, then beginning a watch does what it does there. -/
theorem eq_beginOnce {answer : Supervisor σ → Call → Option (Supervisor σ)}
    (hanswer : ∀ s call r, answer s call = some r → s.refreshing = true → r = s.interject call)
    {s r : Supervisor σ} {e : Endpoint} (h : s.refreshing = true)
    (hr : (do
      let begun ← (s.terms.greeting (s.watches.map Watch.origin) e).foldlM answer (s.addWatch e)
      some (begun.enlist e s.watches.length)) = some r) : r = s.beginOnce e := by
  obtain ⟨u, hu, hr⟩ := Option.bind_eq_some_iff.mp hr
  have hadd : (s.addWatch e).refreshing = true := h
  obtain rfl := eq_foldl_of_foldlM Steady.interject hanswer _ hadd hu
  exact (Option.some.inj hr).symm

/-- If watches are begun as they are within a pass, then a pass does what it does. -/
theorem eq_passOnce {beginWatch : Supervisor σ → Endpoint → Option (Supervisor σ)}
    (hbegin : ∀ s e r, beginWatch s e = some r → s.refreshing = true → r = s.beginOnce e)
    {s r : Supervisor σ} (h : s.refreshing = true)
    (hr : (do
      let s ← (Strategy.selected s.strategy).foldlM
        (fun s e => if s.watching e then some s else beginWatch s e)
        (s.releaseUnchosen (Strategy.selected s.strategy))
      some s.noteChecked) = some r) : r = s.passOnce := by
  obtain ⟨u, hu, hr⟩ := Option.bind_eq_some_iff.mp hr
  have hrelease : (s.releaseUnchosen (Strategy.selected s.strategy)).refreshing = true := h
  have hstep (t : Supervisor σ) (e : Endpoint) (r : Supervisor σ)
      (hr : (if t.watching e = true then some t else beginWatch t e) = some r)
      (ht : t.refreshing = true) : r = t.ensureWatch e := by
    unfold ensureWatch
    split at hr
    · rename_i hon
      rw [if_pos hon]
      exact (Option.some.inj hr).symm
    · rename_i hoff
      rw [if_neg hoff]
      exact hbegin t e r hr ht
  obtain rfl := eq_foldl_of_foldlM Steady.ensureWatch hstep _ hrelease hu
  exact (Option.some.inj hr).symm

/-- If a request is just noted, then a score is heard as it is within a pass. -/
theorem eq_heed {refresh : Supervisor σ → Option (Supervisor σ)}
    (hrefresh : ∀ s r, refresh s = some r → s.refreshing = true → r = s.setRequested true)
    {s r : Supervisor σ} {e : Endpoint} {score : Float} (h : s.refreshing = true)
    (hr : (let judged := Strategy.judge s.strategy e score
      if judged.2 then refresh (s.setStrategy judged.1) else some (s.setStrategy judged.1)) =
        some r) : r = s.heed e score := by
  unfold heed
  dsimp only at hr ⊢
  split at hr
  · rename_i hmoved
    simp only [hmoved, Bool.or_true]
    exact hrefresh _ r hr h
  · rename_i hstill
    simp only [hstill, Bool.or_false]
    exact (Option.some.inj hr).symm

/-- If a score is heard as it is within a pass, then it is taken in as it is there. -/
theorem eq_absorb {consult : Supervisor σ → Endpoint → Float → Option (Supervisor σ)}
    (hconsult : ∀ s e score r, consult s e score = some r → s.refreshing = true →
      r = s.heed e score)
    {s r : Supervisor σ} {i : Nat} {score : Float} {final : Bool} (h : s.refreshing = true)
    (hr : (match s.watches[i]? with
      | none => some s
      | some w => do
        let s ← if s.abandoned then some s else consult (s.enterScore w score final) w.origin score
        some (s.modifyWatch i Watch.markReported)) = some r) : r = s.absorb i score final := by
  rw [absorb]
  cases hw : s.watches[i]? with
  | none =>
    simp only [hw] at hr
    exact (Option.some.inj hr).symm
  | some w =>
    simp only [hw] at hr
    cases hgone : s.abandoned with
    | true =>
      rw [hgone] at hr
      exact (Option.some.inj hr).symm
    | false =>
      rw [hgone] at hr
      obtain ⟨u, hu, hr⟩ := Option.bind_eq_some_iff.mp hr
      have hentered := (Steady.enterScore s w score final).refreshing.trans h
      obtain rfl := hconsult _ _ _ u hu hentered
      exact (Option.some.inj hr).symm

/-- Passes that come to an end do so within some bound. The induction says of each operation what
it gives while passes are under way. -/
theorem passesWithin_of_passes {s t : Supervisor σ} (h : s.refreshing = true)
    (ht : s.passes = some t) : ∃ n, s.passesWithin n = some t := by
  -- One fact for each function of the recursion: once the passes are under way, a call made from
  -- within them comes to what its plain form gives. The fourth fact, of the passes, is wanted.
  have all := offer.mutual_partial_correctness
    (fun (s : Supervisor σ) candidates r => s.refreshing = true → r = s.takeIn candidates)
    (fun s r => s.refreshing = true → r = s.setRequested true)
    (fun s r => s.refreshing = true → r = s)
    (fun s r => s.refreshing = true → ∃ n, s.passesWithin n = some r)
    (fun s r => s.refreshing = true → s.closing = false → r = s.passOnce)
    (fun s e r => s.refreshing = true → r = s.beginOnce e)
    (fun s call r => s.refreshing = true → r = s.interject call)
    (fun s i score final r => s.refreshing = true → r = s.absorb i score final)
    (fun s e score r => s.refreshing = true → r = s.heed e score)
    (by
      intro refresh ih s candidates r hr h
      obtain ⟨u, hu, hr⟩ := Option.bind_eq_some_iff.mp hr
      obtain rfl := ih _ u hu h
      exact (Option.some.inj hr).symm)
    (by
      intro enterPasses ih s r hr h
      exact ih _ r hr h)
    (by
      intro enterPasses passes ihEnter ihPasses s r hr h
      rw [if_pos (by simp [h])] at hr
      exact (Option.some.inj hr).symm)
    (by
      intro passes pass ihPasses ihPass s r hr h
      split at hr
      · rename_i hdue
        split at hr
        · rename_i hclosing
          exact ⟨1, by rw [passesWithin, if_pos hdue, if_pos hclosing, hr]⟩
        · rename_i hopen
          obtain ⟨u, hu, hr⟩ := Option.bind_eq_some_iff.mp hr
          have hset : (s.setRequested false).refreshing = true := h
          obtain rfl := ihPass _ u hu hset (by simpa [setRequested] using hopen)
          obtain ⟨n, hn⟩ := ihPasses _ r hr ((Steady.passOnce _).refreshing.trans hset)
          exact ⟨n + 1, by rw [passesWithin, if_pos hdue, if_neg hopen, hn]⟩
      · rename_i hrest
        exact ⟨1, by rw [passesWithin, if_neg hrest, hr]⟩)
    (by
      intro beginWatch ih s r hr h hopen
      rw [if_neg (by simp [hopen])] at hr
      exact eq_passOnce ih h hr)
    (by
      intro answer ih s e r hr h
      exact eq_beginOnce ih h hr)
    (by
      intro offer deliver ihOffer ihDeliver s call r hr h
      cases call with
      | offer candidates => exact ihOffer s candidates r hr h
      | report i score => exact ihDeliver s i score false r hr h)
    (by
      intro consult ih s i score final r hr h
      exact eq_absorb ih h hr)
    (by
      intro refresh ih s e score r hr h
      exact eq_heed ih h hr)
  exact all.2.2.2.1 s t ht h

/-- While passes are under way, they come to an end exactly if they do within some bound. -/
theorem passes_eq_some_iff {s t : Supervisor σ} (h : s.refreshing = true) :
    s.passes = some t ↔ ∃ n, s.passesWithin n = some t :=
  ⟨passesWithin_of_passes h, fun ⟨_, hn⟩ => passes_of_passesWithin h hn⟩

/-- Passes end with no request left. -/
theorem requested_of_passesWithin {n : Nat} {s t : Supervisor σ} (h : s.passesWithin n = some t) :
    t.requested = false := by
  induction n generalizing s with
  | zero => simp [passesWithin] at h
  | succ n ih =>
    simp only [passesWithin] at h
    split at h
    · split at h
      · cases h
        rfl
      · exact ih h
    · rename_i hrest
      cases h
      simpa using hrest

/-- A request to a closing supervisor is left as it is. -/
theorem refresh_of_closing {s : Supervisor σ} (h : s.closing = true) :
    s.refresh = some (s.setRequested true) := by
  rw [refresh.eq_1, enterPasses.eq_1]
  simp [setRequested, h]

/-- A request made while no pass is under way is followed by passes until none is left. -/
theorem refresh_eq_some_iff {s t : Supervisor σ} (hrest : s.refreshing = false)
    (hopen : s.closing = false) :
    s.refresh = some t ↔ ∃ n u, ((s.setRequested true).setRefreshing true).passesWithin n = some u ∧
      u.setRefreshing false = t := by
  have hbusy : ((s.setRequested true).setRefreshing true).refreshing = true := rfl
  have henter : s.refresh = (((s.setRequested true).setRefreshing true).passes >>= fun u =>
      if u.requested then (u.setRefreshing false).enterPasses
      else some (u.setRefreshing false)) := by
    rw [refresh.eq_1, enterPasses.eq_1]
    exact if_neg (by simp [setRequested, hopen, hrest])
  rw [henter]
  constructor
  · intro h
    obtain ⟨u, hu, ht⟩ := Option.bind_eq_some_iff.mp h
    obtain ⟨n, hn⟩ := (passes_eq_some_iff hbusy).mp hu
    rw [requested_of_passesWithin hn] at ht
    exact ⟨n, u, hn, Option.some.inj ht⟩
  · rintro ⟨n, u, hn, rfl⟩
    refine Option.bind_eq_some_iff.mpr ⟨u, (passes_eq_some_iff hbusy).mpr ⟨n, hn⟩, ?_⟩
    rw [requested_of_passesWithin hn]
    rfl

end HealthWatch.Supervisor
