import HealthWatch.Proofs.Supervisor.Publication
import HealthWatch.Proofs.Supervisor.Reconciliation

/-!
# Healthy endpoints are watched

A pass puts watches in force on endpoints that the strategy selects, so on candidates, and when the
candidates change within a pass another one follows. Hence between two events the watches in force
are on candidates, if only the strategy selects among them (`Run.inForce_offered`).

An endpoint is entered in the book by its watches, and by watches that were let go as long as these
have not ended. The end of a watch leaves no good score, and no score at all if its endpoint is no
candidate any more. So a good score, or a score of an endpoint that is no candidate, comes with a
watch on that endpoint that has not ended (`Backed`).
-/

set_option autoImplicit false

namespace HealthWatch.Supervisor

variable {σ : Type} [Strategy σ]

/-! ## Watches in force are on candidates -/

/-- The candidates are these, unless another pass is due. -/
def Retains (candidates : List Endpoint) (s : Supervisor σ) : Prop :=
  s.requested = false → s.candidates = candidates

/-- Calls within a pass change the candidates only along with a request for another pass. -/
theorem Retains.interject {candidates : List Endpoint} {s : Supervisor σ}
    (h : s.Retains candidates) (call : Call) : (s.interject call).Retains candidates := by
  cases call with
  | offer list =>
    have hdue : ((s.adopt list).setRequested true).Retains candidates := nofun
    exact republishIf_keeps (fun _ _ _ hu => hu) hdue _
  | report i score =>
    show (s.absorb i score false).Retains candidates
    unfold absorb
    split
    · exact h
    · rename_i w _
      split
      · exact h
      · obtain ⟨book, feed, outbox, heq⟩ := enterScore_eq s w score false
        rw [heq]
        intro hidle
        exact h (Bool.or_eq_false_iff.mp hidle).1

/-- Where a pass stands that has chosen these endpoints, when the candidates were these. -/
structure Choosing (chosen candidates : List Endpoint) (s : Supervisor σ) : Prop where
  within : ∀ e ∈ s.inForce, e ∈ chosen
  retains : s.Retains candidates

/-- A pass that goes on to one of the endpoints it has chosen stands as it stood. -/
theorem Choosing.ensureWatch {chosen candidates : List Endpoint} {s : Supervisor σ}
    (h : s.Choosing chosen candidates) {e : Endpoint} (he : e ∈ chosen) :
    (s.ensureWatch e).Choosing chosen candidates := by
  unfold Supervisor.ensureWatch
  split
  · exact h
  · constructor
    · intro f hf
      rw [inForce_beginOnce] at hf
      rcases List.mem_append.mp hf with hf | hf
      · exact h.within f hf
      · rw [List.mem_singleton.mp hf]
        exact he
    · exact beginOnce_keeps (P := Retains candidates) (fun _ call ht => ht.interject call)
        (fun _ _ ht => ht) (fun _ _ _ ht => ht) h.retains e

/-- A pass that needs no other one leaves watches on candidates only. -/
theorem inForce_passOnce {s : Supervisor σ}
    (hselects : ∀ e ∈ Strategy.selected s.strategy, e ∈ s.candidates)
    (hidle : s.passOnce.requested = false) :
    ∀ e ∈ s.passOnce.inForce, e ∈ s.passOnce.candidates := by
  have hstart : (s.releaseUnchosen (Strategy.selected s.strategy)).Choosing
      (Strategy.selected s.strategy) s.candidates := by
    refine ⟨fun e he => ?_, fun _ => rfl⟩
    rw [inForce_releaseUnchosen] at he
    simpa using (List.mem_filter.mp he).2
  have hend := List.foldlRecOn _ Supervisor.ensureWatch hstart fun _ ht e he => ht.ensureWatch he
  have hsame : s.passOnce.candidates = s.candidates := hend.retains hidle
  intro e he
  rw [hsame]
  exact hselects e (hend.within e he)

/-- A request leaves watches on candidates only. -/
theorem inForce_refresh {first : σ} (hselects : Strategy.SelectsOffered first)
    {s t : Supervisor σ} (hheard : Strategy.Heard first s.candidates s.strategy)
    (hrest : s.refreshing = false) (hopen : s.closing = false) (h : s.refresh = some t) :
    ∀ e ∈ t.inForce, e ∈ t.candidates := by
  obtain ⟨u, hmoves, hidle, rfl⟩ :=
    (keptByPasses_moves s).refresh_ends hrest hopen h Relation.ReflTransGen.refl
  have hchosen := hselects _ _ (hmoves.heard hheard)
  exact inForce_passOnce hchosen hidle

/-- Taking in a score changes the watches in force by passes only, and the candidates not at all. -/
theorem inForce_deliver {first : σ} (hselects : Strategy.SelectsOffered first)
    {s t : Supervisor σ} (hheard : Strategy.Heard first s.candidates s.strategy)
    (hrest : s.refreshing = false) (hopen : s.closing = false)
    (hs : ∀ e ∈ s.inForce, e ∈ s.candidates) {i : Nat} {score : Float} {final : Bool}
    (h : s.deliver i score final = some t) : ∀ e ∈ t.inForce, e ∈ t.candidates := by
  rcases deliver_cases h with ⟨-, rfl⟩ | ⟨w, u, -, rfl, ⟨-, rfl⟩ | ⟨-, hu⟩⟩
  · exact hs
  · exact hs
  · obtain ⟨book, feed, outbox, heq⟩ := enterScore_eq s w score final
    rw [heq] at hu
    rcases consult_cases hu with ⟨-, rfl⟩ | ⟨-, hu⟩
    · exact hs
    · have hjudged := hheard.judge w.origin score
      have hafter :=
        inForce_refresh hselects (by exact hjudged) (by exact hrest) (by exact hopen) hu
      exact hafter

/-- Between two events the watches in force are on candidates. -/
theorem Run.inForce_offered {terms : Terms} {strategy : σ}
    (hselects : Strategy.SelectsOffered strategy) {events : List Event} {s : Supervisor σ}
    (h : Run (fresh terms strategy) events s) : ∀ e ∈ s.inForce, e ∈ s.candidates := by
  induction h with
  | nil => simp [fresh, inForce]
  | @snoc events event t u h k ih =>
    have hrest : t.refreshing = false := Run.refreshing h
    have hheard := Run.heard h
    cases hclosing : u.closing with
    | true =>
      rw [inForce, Run.current_of_closing (h.snoc k) hclosing]
      simp
    | false =>
      have hopen : t.closing = false := by
        rcases k.closing_cases hrest with hsame | ⟨-, rfl⟩
        · exact hsame.symm.trans hclosing
        · cases hclosing
      cases k with
      | @offer candidates _ hoffer =>
        obtain ⟨v, hv, rfl⟩ := offer_eq_some_iff.mp hoffer
        obtain ⟨feed, outbox, heq⟩ := republishIf_eq v v.started
        rw [heq]
        have hoffered := hheard.offer candidates
        have hafter :=
          inForce_refresh hselects (by exact hoffered) (by exact hrest) (by exact hopen) hv
        exact hafter
      | report hreport => exact inForce_deliver hselects hheard hrest hopen ih hreport
      | @retire i _ _ hretire =>
        obtain rfl | ⟨w, -, -, hretire⟩ := retire_eq_some hretire
        · exact ih
        · exact inForce_deliver hselects (by exact hheard) (by exact hrest) (by exact hopen)
            (by exact ih) hretire
      | start _ =>
        obtain ⟨feed, outbox, heq⟩ := republish_eq { t with started := true }
        rw [finishStartup, heq]
        exact ih
      | enterJob hjob =>
        obtain ⟨f, rfl, -⟩ := eq_modifyWatch_of_enterJob hjob
        exact ih
      | beginClose _ => cases hclosing
      | _ => exact ih

/-! ## What the book says is backed by watches -/

/-- An endpoint has a watch that has not ended. -/
def Attended (s : Supervisor σ) (e : Endpoint) : Prop :=
  ∃ (i : Nat) (w : Watch), s.watches[i]? = some w ∧ w.origin = e ∧ w.retired = false

/-- A good score of an endpoint, or any score if it is no candidate, comes with a watch that has not
ended. -/
def Backed (s : Supervisor σ) (e : Endpoint) : Prop :=
  ∀ score, s.health.score? e = some score →
    HealthBook.positive score = true ∨ e ∉ s.candidates → s.Attended e

omit [Strategy σ] in
/-- An endpoint stays attended while its watches are carried along. -/
theorem Attended.carried {s t : Supervisor σ} {e : Endpoint} (h : s.Attended e)
    (hcarried : Carried s t) : t.Attended e := by
  obtain ⟨i, w, hw, horigin, hlive⟩ := h
  obtain ⟨v, hv, hkept, hroster⟩ := hcarried i w hw
  exact ⟨i, v, hv, hkept.trans horigin, (congrArg Roster.closed hroster).trans hlive⟩

omit [Strategy σ] in
/-- An endpoint stays attended when a watch changes but for its endpoint and its end. -/
theorem Attended.modifyWatch {s : Supervisor σ} {e : Endpoint} (h : s.Attended e) {i : Nat}
    {f : Watch → Watch} (horigin : ∀ w, s.watches[i]? = some w → (f w).origin = w.origin)
    (hretired : ∀ w, s.watches[i]? = some w → (f w).retired = w.retired) :
    (s.modifyWatch i f).Attended e := by
  obtain ⟨j, w, hw, he, hlive⟩ := h
  by_cases hij : i = j
  · subst hij
    refine ⟨i, f w, ?_, (horigin w hw).trans he, (hretired w hw).trans hlive⟩
    simp [Supervisor.modifyWatch, hw]
  · exact ⟨j, w, by simp [Supervisor.modifyWatch, hij, hw], he, hlive⟩

omit [Strategy σ] in
/-- An endpoint stays backed when a watch changes but for its endpoint and its end. -/
theorem Backed.modifyWatch {s : Supervisor σ} {e : Endpoint} (h : s.Backed e) {i : Nat}
    {f : Watch → Watch} (horigin : ∀ w, s.watches[i]? = some w → (f w).origin = w.origin)
    (hretired : ∀ w, s.watches[i]? = some w → (f w).retired = w.retired) :
    (s.modifyWatch i f).Backed e :=
  fun score hscore hneeds => (h score hscore hneeds).modifyWatch horigin hretired

omit [Strategy σ] in
/-- That a watch has reported bears on no backing. -/
theorem Backed.markReported {s : Supervisor σ} {e : Endpoint} (h : s.Backed e) (i : Nat) :
    (s.modifyWatch i Watch.markReported).Backed e :=
  h.modifyWatch (fun _ _ => rfl) (fun _ _ => rfl)

omit [Strategy σ] in
/-- A publication bears on no backing. -/
theorem Backed.republishIf {s : Supervisor σ} {e : Endpoint} (h : s.Backed e) (reason : Bool) :
    (s.republishIf reason).Backed e :=
  republishIf_keeps (P := fun t => t.Backed e) (fun _ _ _ ht => ht) h reason

omit [Strategy σ] in
/-- A score of an endpoint that has a watch is backed. -/
theorem Backed.record {s : Supervisor σ} {e : Endpoint} {score : Float}
    (hattended : s.Attended e) (h : ∀ f, s.Backed f) (f : Endpoint) :
    (s.record e score).Backed f := by
  intro found hfound hneeds
  by_cases hfe : f = e
  · rw [hfe]
    exact hattended
  · have hold : s.health.score? f = some found := by
      rw [← hfound]
      exact (if_neg hfe ▸ HealthBook.score?_record s.health e f score).symm
    exact h f found hold hneeds

omit [Strategy σ] in
/-- A score of a watch is backed by that watch, or it is not entered. -/
theorem Backed.enterScore {s : Supervisor σ} {i : Nat} {w : Watch}
    (hw : s.watches[i]? = some w) (score : Float) (h : ∀ e, s.Backed e) (e : Endpoint) :
    (s.enterScore w score false).Backed e := by
  cases hretired : w.retired with
  | true =>
    rw [Supervisor.enterScore, hretired]
    exact h e
  | false =>
    have hattended : s.Attended w.origin := ⟨i, w, hw, rfl, hretired⟩
    have hrecorded : (s.record w.origin score).Backed e := Backed.record hattended h e
    rw [Supervisor.enterScore, hretired]
    exact hrecorded.republishIf _

omit [Strategy σ] in
/-- The score of zero that ends a watch leaves nothing on its endpoint to be backed. -/
theorem Backed.enterFinal {s : Supervisor σ} {w : Watch}
    (h : ∀ e, e ≠ w.origin → s.Backed e) (e : Endpoint) :
    (s.enterScore w 0.0 true).Backed e := by
  have hforget : (s.forget w.origin).Backed e := by
    intro found hfound hneeds
    have hscore := HealthBook.score?_forget s.health w.origin e
    by_cases he : e = w.origin
    · rw [if_pos he] at hscore
      cases hscore.symm.trans hfound
    · rw [if_neg he] at hscore
      exact h e he found (hscore.symm.trans hfound) hneeds
  have hrecord (hcandidate : w.origin ∈ s.candidates) : (s.record w.origin 0.0).Backed e := by
    intro found hfound hneeds
    have hscore := HealthBook.score?_record s.health w.origin e 0.0
    by_cases he : e = w.origin
    · -- the endpoint is a candidate and its score is not good
      rw [if_pos he] at hscore
      obtain rfl := Option.some.inj (hscore.symm.trans hfound)
      rcases hneeds with hgood | hgone
      · exact absurd hgood (by decide)
      · exact absurd (he ▸ hcandidate) hgone
    · rw [if_neg he] at hscore
      exact h e he found (hscore.symm.trans hfound) hneeds
  unfold Supervisor.enterScore
  simp only [Bool.not_true, Bool.and_false, Bool.false_eq_true, if_false, Bool.true_and]
  split
  · exact hforget.republishIf _
  · rename_i hcandidate
    exact (hrecord (by simpa using hcandidate)).republishIf _

/-- New candidates leave in the book their own scores only. -/
theorem Backed.adopt {s : Supervisor σ} {e : Endpoint} (h : s.Backed e)
    (candidates : List Endpoint) : (s.adopt candidates).Backed e := by
  intro score hscore hneeds
  have hkept : (s.health.keepOnly candidates).score? e = some score := hscore
  rw [HealthBook.score?_keepOnly] at hkept
  split at hkept
  · rename_i hcontained
    have hcandidate : e ∈ candidates := by simpa using hcontained
    rcases hneeds with hgood | hgone
    · exact h score hkept (Or.inl hgood)
    · exact absurd hcandidate hgone
  · cases hkept

/-! ## Every event keeps the book backed -/

/-- A call within a pass keeps the book backed, for it reports on a watch or changes the candidates.
-/
theorem backed_interject {s : Supervisor σ} (h : ∀ e, s.Backed e) (call : Call) (e : Endpoint) :
    (s.interject call).Backed e := by
  cases call with
  | offer candidates =>
    have hadopted : ((s.adopt candidates).setRequested true).Backed e := (h e).adopt candidates
    exact hadopted.republishIf _
  | report i score =>
    show (s.absorb i score false).Backed e
    unfold absorb
    split
    · exact h e
    · rename_i w hw
      apply Backed.markReported
      split
      · exact h e
      · exact Backed.enterScore hw score h e

/-- Passes keep the book backed, whatever the checks of the watches that they begin call. -/
theorem keptByPasses_backed : KeptByPasses fun s : Supervisor σ => ∀ e, s.Backed e where
  setRequested _ _ h := h
  setRefreshing _ _ h := h
  beginOnce _ f _ h :=
    beginOnce_keeps (P := fun s => ∀ e, s.Backed e)
      (fun _ call ht => backed_interject ht call)
      (fun t f ht e score hscore hneeds =>
        (ht e score hscore hneeds).carried ((Carried.refl t).addWatch f))
      (fun _ _ _ ht => ht) h f
  releaseUnchosen _ _ h := h
  noteChecked _ h := h

/-- A score that leaves the book backed does so together with the passes after it. -/
theorem backed_deliver {s t : Supervisor σ} (hrest : s.refreshing = false) {i : Nat} {w : Watch}
    (hw : s.watches[i]? = some w) {score : Float} {final : Bool}
    (h : s.deliver i score final = some t) (hs : s.abandoned = true → ∀ e, s.Backed e)
    (hentered : ∀ e, (s.enterScore w score final).Backed e) (e : Endpoint) : t.Backed e := by
  rcases deliver_cases h with ⟨hnone, -⟩ | ⟨v, u, hv, rfl, ⟨hgone, rfl⟩ | ⟨-, hu⟩⟩
  · cases hnone.symm.trans hw
  · exact (hs hgone e).markReported i
  · obtain rfl : w = v := Option.some.inj (hw.symm.trans hv)
    have hrest' := (Steady.enterScore s w score final).refreshing.trans hrest
    exact (keptByPasses_backed.consult (fun _ _ _ ht => ht) hrest' hu hentered e).markReported i

/-- A report that comes between two events keeps the book backed. -/
theorem backed_report {s t : Supervisor σ} (hrest : s.refreshing = false) {i : Nat} {score : Float}
    (h : s.deliver i score false = some t) (hs : ∀ e, s.Backed e) (e : Endpoint) : t.Backed e := by
  cases hw : s.watches[i]? with
  | none =>
    rw [deliver.eq_1, hw] at h
    cases h
    exact hs e
  | some w => exact backed_deliver hrest hw h (fun _ => hs) (Backed.enterScore hw score hs) e

/-- A watch that ends no longer backs anything, and its last score leaves nothing to be backed. -/
theorem backed_retire {s t : Supervisor σ} (hrest : s.refreshing = false)
    (hthere : s.abandoned = false) {i : Nat} (h : s.retire i = some t) (hs : ∀ e, s.Backed e)
    (e : Endpoint) : t.Backed e := by
  obtain rfl | ⟨w, hw, -, h⟩ := retire_eq_some h
  · exact hs e
  · have hend : (s.modifyWatch i Watch.retire).watches[i]? = some w.retire := by
      simp [modifyWatch, hw]
    have hothers (f : Endpoint) (hf : f ≠ w.origin) : (s.modifyWatch i Watch.retire).Backed f := by
      intro score hscore hneeds
      obtain ⟨j, v, hv, horigin, hlive⟩ := hs f score hscore hneeds
      have hji : i ≠ j := by
        rintro rfl
        exact hf (horigin.symm.trans (congrArg Watch.origin (Option.some.inj (hv.symm.trans hw))))
      exact ⟨j, v, by simp [modifyWatch, hji, hv], horigin, hlive⟩
    refine backed_deliver ?_ hend h ?_ (Backed.enterFinal hothers) e
    · exact hrest
    · intro hgone
      cases hthere.symm.trans hgone

/-- Throughout a life, what the book says is backed by watches that have not ended. -/
theorem Run.backed {terms : Terms} {strategy : σ} {events : List Event} {s : Supervisor σ}
    (h : Run (fresh terms strategy) events s) (e : Endpoint) : s.Backed e := by
  induction h generalizing e with
  | nil =>
    intro score hscore
    simp [fresh, HealthBook.empty, HealthBook.score?] at hscore
  | @snoc events event t u h k ih =>
    have hrest : t.refreshing = false := Run.refreshing h
    cases k with
    | @offer candidates _ hoffer =>
      obtain ⟨v, hv, rfl⟩ := offer_eq_some_iff.mp hoffer
      have hadopted (f : Endpoint) : (t.adopt candidates).Backed f := (ih f).adopt candidates
      exact (keptByPasses_backed.refresh (by exact hrest) hv hadopted e).republishIf _
    | report hreport => exact backed_report hrest hreport ih e
    | retire _ hretire => exact backed_retire hrest (Run.abandoned h) hretire ih e
    | start _ =>
      have hstarted : Backed { t with started := true } e := ih e
      exact hstarted.republishIf true
    | enterJob hjob =>
      obtain ⟨f, rfl, horigin, hretired, -⟩ := eq_modifyWatch_of_enterJob hjob
      exact (ih e).modifyWatch horigin hretired
    | releaseJob i id => exact (ih e).modifyWatch (fun _ _ => rfl) (fun _ _ => rfl)
    | _ => exact ih e

/-- A healthy endpoint has a watch that has not ended. -/
theorem Run.attended_of_healthy {terms : Terms} {strategy : σ} {events : List Event}
    {s : Supervisor σ} (h : Run (fresh terms strategy) events s) {e : Endpoint}
    (he : s.health.isHealthy e = true) : s.Attended e := by
  rw [HealthBook.isHealthy_eq] at he
  obtain ⟨score, hscore, hgood⟩ := (Option.any_eq_true _ _).mp he
  exact h.backed e score hscore (Or.inl hgood)

/-! ## Main statement -/

end HealthWatch.Supervisor
