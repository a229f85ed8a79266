import HealthWatch.Proofs.Supervisor.Attendance
import HealthWatch.Proofs.Supervisor.Provisos

/-!
# Watches in force that have reported

A watch that has reported has left a score of its endpoint in the book, and the score goes when the
endpoint is no candidate any more. If the source drops the endpoint, the next pass lets the watch go
as well. But a check that offers candidates while its watch is being begun, in the middle of a pass,
can have an endpoint dropped and taken back before the next pass, which leaves the watch in force
and takes the score away. Nothing else does that. So between two events there is a score of every
endpoint whose watch in force has reported, unless since the beginning of the watch candidates were
offered within passes that its endpoint is not among (`Run.scored_of_reported`).
-/

set_option autoImplicit false

namespace HealthWatch.Supervisor

variable {σ : Type}

/-- Is there a score of the endpoint? -/
def scored (s : Supervisor σ) (e : Endpoint) : Bool :=
  (s.health.score? e).isSome

/-- The watch is on this endpoint and is not retired, and if it has reported, there is a score of
the endpoint. -/
def Vouched (s : Supervisor σ) (e : Endpoint) (i : Nat) : Prop :=
  ∃ w : Watch, s.watches[i]? = some w ∧ w.origin = e ∧ w.retired = false ∧
    (w.reported = true → s.scored e = true)

/-- A call spares a watch on an endpoint if it does not offer candidates without the endpoint once
the watch is there. -/
def Spares (e : Endpoint) (i : Nat) (s : Supervisor σ) : Call → Prop
  | .offer candidates => i < s.watches.length → e ∈ candidates
  | .report _ _ => True

/-! ## Scores that stay -/

/-- A publication leaves the book as it is. -/
theorem health_republishIf (s : Supervisor σ) (reason : Bool) :
    (s.republishIf reason).health = s.health := by
  obtain ⟨feed, outbox, heq⟩ := republishIf_eq s reason
  rw [heq]

/-- A score that is recorded is there, and no other one goes. -/
theorem scored_record (s : Supervisor σ) (e f : Endpoint) (score : Float) :
    (s.record e score).scored f = (f == e || s.scored f) := by
  unfold scored record
  rw [HealthBook.score?_record]
  by_cases hfe : f = e <;> simp [hfe]

/-- A score that is entered takes none away, unless it is the final one of a watch whose endpoint
is no candidate any more. -/
theorem scored_enterScore {s : Supervisor σ} {e : Endpoint} (h : s.scored e = true) {w : Watch}
    {score : Float} {final : Bool} (hkept : final = true → e ∈ s.candidates) :
    (s.enterScore w score final).scored e = true := by
  unfold enterScore
  split
  · exact h
  · split
    · rename_i hgone
      obtain ⟨hfinal, hgone⟩ := (Bool.and_eq_true _ _).mp hgone
      have hne : e ≠ w.origin := by
        rintro rfl
        simp [hkept hfinal] at hgone
      rw [scored, health_republishIf]
      show ((s.health.forget w.origin).score? e).isSome = true
      rw [HealthBook.score?_forget, if_neg hne]
      exact h
    · rw [scored, health_republishIf]
      show (s.record w.origin score).scored e = true
      rw [scored_record, h, Bool.or_true]

/-- A watch that is not retired leaves a score when it reports. -/
theorem scored_of_enterScore {s : Supervisor σ} {w : Watch} (hlive : w.retired = false)
    (score : Float) : (s.enterScore w score false).scored w.origin = true := by
  unfold enterScore
  simp only [hlive, Bool.false_and, Bool.false_eq_true, if_false]
  rw [scored, health_republishIf]
  show (s.record w.origin score).scored w.origin = true
  rw [scored_record, beq_self_eq_true, Bool.true_or]

variable [Strategy σ]

/-- A report within a pass takes no score away. -/
theorem scored_absorb {s : Supervisor σ} {e : Endpoint} (h : s.scored e = true) (i : Nat)
    (score : Float) : (s.absorb i score false).scored e = true := by
  unfold absorb
  split
  · exact h
  · split
    · exact h
    · exact scored_enterScore h (absurd · Bool.false_ne_true)

/-- Candidates take no score away of one of them. -/
theorem scored_adopt {s : Supervisor σ} {e : Endpoint} (h : s.scored e = true)
    {candidates : List Endpoint} (he : e ∈ candidates) : (s.adopt candidates).scored e = true := by
  have hkept := HealthBook.score?_keepOnly s.health candidates e
  rw [if_pos (by simpa using he)] at hkept
  exact (congrArg Option.isSome hkept).trans h

/-- New candidates within a pass take no score away of one of them. -/
theorem scored_takeIn {s : Supervisor σ} {e : Endpoint} (h : s.scored e = true)
    {candidates : List Endpoint} (he : e ∈ candidates) : (s.takeIn candidates).scored e = true := by
  unfold takeIn
  rw [scored, health_republishIf]
  exact scored_adopt h he

/-! ## Watches that are vouched for -/

namespace Vouched

variable {s t : Supervisor σ} {e : Endpoint} {i : Nat}

omit [Strategy σ] in
/-- A watch that is vouched for is there. -/
theorem length (h : s.Vouched e i) : i < s.watches.length := by
  obtain ⟨w, hw, -⟩ := h
  exact (List.getElem?_eq_some_iff.mp hw).1

omit [Strategy σ] in
/-- A watch stays vouched for as long as it is the same and the score of its endpoint stays. -/
theorem congr (h : s.Vouched e i) (hwatches : t.watches = s.watches)
    (hscored : s.scored e = true → t.scored e = true) : t.Vouched e i := by
  obtain ⟨w, hw, horigin, hlive, hreported⟩ := h
  exact ⟨w, by rw [hwatches, hw], horigin, hlive, fun hr => hscored (hreported hr)⟩

omit [Strategy σ] in
/-- Entering a score leaves a watch vouched for, unless it is the final one of a watch whose
endpoint is no candidate. -/
theorem enterScore (h : s.Vouched e i) {w : Watch} {score : Float} {final : Bool}
    (hkept : final = true → e ∈ s.candidates) : (s.enterScore w score final).Vouched e i := by
  refine h.congr ?_ fun hscored => scored_enterScore hscored hkept
  obtain ⟨book, feed, outbox, heq⟩ := enterScore_eq s w score final
  rw [heq]

omit [Strategy σ] in
/-- A change of another watch, or one that leaves the watch on its endpoint and not retired. -/
theorem modifyWatch (h : s.Vouched e i) {j : Nat} {f : Watch → Watch}
    (hf : j = i → ∀ w, s.watches[i]? = some w → (f w).origin = w.origin ∧
      (f w).retired = w.retired ∧ ((f w).reported = true → w.reported = true ∨ s.scored e = true)) :
    (s.modifyWatch j f).Vouched e i := by
  obtain ⟨w, hw, horigin, hlive, hreported⟩ := h
  by_cases hij : j = i
  · obtain ⟨horigin', hretired, hmarked⟩ := hf hij w hw
    refine ⟨f w, by simp [Supervisor.modifyWatch, hij, hw], horigin'.trans horigin,
      hretired.trans hlive, fun hr => ?_⟩
    rcases hmarked hr with hold | hscored
    · exact hreported hold
    · exact hscored
  · exact ⟨w, by simp [Supervisor.modifyWatch, hij, hw], horigin, hlive, hreported⟩

omit [Strategy σ] in
/-- A watch that is marked is vouched for if there is a score of its endpoint by then. -/
theorem markReported (h : s.Vouched e i) {j : Nat} (hscored : j = i → s.scored e = true) :
    (s.modifyWatch j Watch.markReported).Vouched e i :=
  h.modifyWatch fun hij _ _ => ⟨rfl, rfl, fun _ => Or.inr (hscored hij)⟩

omit [Strategy σ] in
/-- A further watch leaves those vouched for that were. -/
theorem addWatch (h : s.Vouched e i) (f : Endpoint) : (s.addWatch f).Vouched e i := by
  obtain ⟨w, hw, hkept⟩ := h
  obtain ⟨hlt, -⟩ := List.getElem?_eq_some_iff.mp hw
  exact ⟨w, by simpa [Supervisor.addWatch, List.getElem?_append_left hlt] using hw, hkept⟩

omit [Strategy σ] in
/-- A watch that is new is not asked for anything, since it has not reported. -/
theorem new (s : Supervisor σ) (e : Endpoint) : (s.addWatch e).Vouched e s.watches.length := by
  have hnew : (s.addWatch e).watches[s.watches.length]? =
      some { origin := e, target := e.checkTarget s.terms.scheme s.terms.port } := by
    simp [Supervisor.addWatch]
  exact ⟨_, hnew, rfl, rfl, (absurd · Bool.false_ne_true)⟩

/-- Candidates leave a watch vouched for whose endpoint is one of them. -/
theorem adopt (h : s.Vouched e i) {candidates : List Endpoint} (he : e ∈ candidates) :
    (s.adopt candidates).Vouched e i :=
  h.congr rfl fun hscored => scored_adopt hscored he

/-- New candidates within a pass leave a watch vouched for whose endpoint is one of them. -/
theorem takeIn (h : s.Vouched e i) {candidates : List Endpoint} (he : e ∈ candidates) :
    (s.takeIn candidates).Vouched e i := by
  refine h.congr ?_ fun hscored => scored_takeIn hscored he
  obtain ⟨feed, outbox, heq⟩ :=
    republishIf_eq ((s.adopt candidates).setRequested true) s.started
  rw [Supervisor.takeIn, heq]
  rfl

/-- A watch that reports leaves a score, or is retired. -/
theorem absorb (h : s.Vouched e i) (hthere : s.abandoned = false) (j : Nat) (score : Float) :
    (s.absorb j score false).Vouched e i := by
  unfold Supervisor.absorb
  cases hw : s.watches[j]? with
  | none => exact h
  | some w =>
    simp only [hthere, Bool.false_eq_true, if_false]
    have hentered : (s.enterScore w score false).Vouched e i := h.enterScore nofun
    have hheard : ((s.enterScore w score false).heed w.origin score).Vouched e i := hentered
    refine hheard.markReported fun hij => ?_
    obtain ⟨v, hv, rfl, hlive, -⟩ := h
    obtain rfl : w = v := Option.some.inj (hw.symm.trans (hij ▸ hv))
    exact scored_of_enterScore hlive score

end Vouched

/-! ## What passes keep -/

/-- The supervisor takes reports, and the watch is vouched for if it is in force on the endpoint. -/
structure Trusted (e : Endpoint) (i : Nat) (s : Supervisor σ) : Prop where
  there : s.abandoned = false
  vouched : (e, i) ∈ s.current → s.Vouched e i

/-- A watch that is begun is vouched for when it comes into force: if its check has reported through
it by then, it has left a score. -/
theorem Trusted.beginOnce {e : Endpoint} {i : Nat} {s : Supervisor σ} (h : Trusted e i s)
    {f : Endpoint} (hfits : s.CallsFit (Spares e i) f) : Trusted e i (s.beginOnce f) := by
  let entries := s.current ++ [(f, s.watches.length)]
  let P (t : Supervisor σ) := t.abandoned = false ∧ ((e, i) ∈ entries → t.Vouched e i)
  have hadded : P (s.addWatch f) := by
    refine ⟨h.there, fun hin => ?_⟩
    rcases List.mem_append.mp hin with hin | hin
    · exact (h.vouched hin).addWatch f
    · obtain ⟨rfl, rfl⟩ := Prod.mk.inj (List.mem_singleton.mp hin)
      exact Vouched.new s e
  have hcall (t : Supervisor σ) (call : Call) (hspares : Spares e i t call) (ht : P t) :
      P (t.interject call) := by
    obtain ⟨hthere, hvouched⟩ := ht
    refine ⟨(Steady.interject t call).abandoned.trans hthere, fun hin => ?_⟩
    cases call with
    | offer candidates => exact (hvouched hin).takeIn (hspares (hvouched hin).length)
    | report j score => exact (hvouched hin).absorb hthere j score
  obtain ⟨hthere, hvouched⟩ := hfits.keeps hcall hadded
  refine ⟨hthere, fun hin => hvouched ?_⟩
  rwa [Supervisor.beginOnce, enlist, current_foldl_interject] at hin

/-- Passes keep a watch vouched for while the calls within them spare it. -/
theorem keptProvided_trusted (e : Endpoint) (i : Nat) :
    KeptProvided (Spares e i) fun s : Supervisor σ => Trusted e i s where
  setRequested _ _ h := ⟨h.there, h.vouched⟩
  setRefreshing _ _ h := ⟨h.there, h.vouched⟩
  beginOnce _ _ hfits h := h.beginOnce hfits
  releaseUnchosen _ _ h := ⟨h.there, fun hin => h.vouched (List.mem_filter.mp hin).1⟩
  noteChecked _ h := ⟨h.there, h.vouched⟩

/-- A score stays while the calls within passes spare the watch. -/
theorem keptProvided_scored (e : Endpoint) (i : Nat) :
    KeptProvided (Spares e i) fun s : Supervisor σ =>
      s.scored e = true ∧ i < s.watches.length where
  setRequested _ _ h := h
  setRefreshing _ _ h := h
  beginOnce s f hfits h := by
    let P (t : Supervisor σ) := t.scored e = true ∧ i < t.watches.length
    have hadded : P (s.addWatch f) :=
      ⟨h.1, Nat.lt_of_lt_of_le h.2 (by simp [Supervisor.addWatch])⟩
    have hcall (t : Supervisor σ) (call : Call) (hspares : Spares e i t call) (ht : P t) :
        P (t.interject call) := by
      have hlength := (unmoved_foldl_interject t [call]).length
      refine ⟨?_, hlength ▸ ht.2⟩
      cases call with
      | offer candidates => exact scored_takeIn ht.1 (hspares ht.2)
      | report j score => exact scored_absorb ht.1 j score
    exact hfits.keeps (P := P) hcall hadded
  releaseUnchosen _ _ h := h
  noteChecked _ h := h

/-! ## Every event keeps it -/

omit [Strategy σ] in
/-- Entering a score keeps a watch vouched for while the watches in force are on candidates. -/
theorem Trusted.enterScore {e : Endpoint} {i : Nat} {s : Supervisor σ} (h : Trusted e i s)
    (hoffered : ∀ f ∈ s.inForce, f ∈ s.candidates) (w : Watch) (score : Float) (final : Bool) :
    Trusted e i (s.enterScore w score final) := by
  refine ⟨(Steady.enterScore s w score final).abandoned.trans h.there, fun hin => ?_⟩
  have hin : (e, i) ∈ s.current := by
    rwa [(unmoved_enterScore s w score final).current] at hin
  exact (h.vouched hin).enterScore fun _ => hoffered e (mem_inForce.mpr ⟨i, hin⟩)

/-- A report leaves a score if its watch is in force, and it is there still when the passes are
over. -/
theorem Trusted.deliver {e : Endpoint} {i : Nat} {s t : Supervisor σ} (h : Trusted e i s)
    (hrest : s.refreshing = false) (hoffered : ∀ f ∈ s.inForce, f ∈ s.candidates) {j : Nat}
    {w : Watch} (hw : s.watches[j]? = some w) {score : Float} {final : Bool}
    (hfinal : final = true → w.retired = true)
    (hfits : ∀ u f, s.BeginsAtScore w score final u f → u.CallsFit (Spares e i) f)
    (ht : s.deliver j score final = some t) : Trusted e i t := by
  rcases deliver_cases ht with ⟨hnone, -⟩ | ⟨v, u, hv, rfl, ⟨hgone, -⟩ | ⟨-, hu⟩⟩
  · cases hw.symm.trans hnone
  · cases h.there.symm.trans hgone
  · obtain rfl : w = v := Option.some.inj (hw.symm.trans hv)
    have hentered := Steady.enterScore s w score final
    have hidle := hentered.refreshing.trans hrest
    have hafter : Trusted e i u := (keptProvided_trusted e i).consult
      (fun _ _ _ hv => ⟨hv.there, hv.vouched⟩) hrest hu hfits (h.enterScore hoffered w score final)
    have hcarried : Carried s u := (keptByPasses_carried s).consult
      (keptByReports_carried s).judge hidle hu
      ((keptByReports_carried s).enterScore s w score final (Carried.refl s))
    refine ⟨hafter.there, fun hin => (hafter.vouched hin).markReported fun hij => ?_⟩
    -- The report comes through this very watch. Its score has been entered, and the passes that may
    -- follow must leave it there.
    subst hij
    obtain ⟨v, hv, rfl, hlive, -⟩ := hafter.vouched hin
    obtain ⟨x, hx, horigin, hroster⟩ := hcarried j w hw
    obtain rfl : v = x := Option.some.inj (hv.symm.trans hx)
    have hlive : w.retired = false := (congrArg Roster.closed hroster).symm.trans hlive
    cases final with
    | true => cases hlive.symm.trans (hfinal rfl)
    | false =>
      have hlength := (unmoved_enterScore s w score false).length
      have hscored : (s.enterScore w score false).scored v.origin = true ∧
          j < (s.enterScore w score false).watches.length := by
        rw [horigin, hlength]
        exact ⟨scored_of_enterScore hlive score, (List.getElem?_eq_some_iff.mp hw).1⟩
      exact ((keptProvided_scored v.origin j).consult (fun _ _ _ hy => hy) hrest hu hfits
        hscored).1

omit [Strategy σ] in
/-- A change of another watch, or one that concerns neither endpoint nor end nor reports, keeps a
watch vouched for. -/
theorem Trusted.modifyWatch {e : Endpoint} {i : Nat} {s : Supervisor σ} (h : Trusted e i s)
    {j : Nat} {f : Watch → Watch}
    (hf : (e, i) ∈ s.current → j = i → ∀ w, s.watches[i]? = some w → (f w).origin = w.origin ∧
      (f w).retired = w.retired ∧ (f w).reported = w.reported) :
    Trusted e i (s.modifyWatch j f) := by
  refine ⟨h.there, fun hin => (h.vouched hin).modifyWatch fun hij w hw => ?_⟩
  obtain ⟨horigin, hretired, hreported⟩ := hf hin hij w hw
  exact ⟨horigin, hretired, fun hr => Or.inl (hreported ▸ hr)⟩

/-- New candidates from the source keep the score of an endpoint or have its watch let go. -/
theorem Trusted.offer {e : Endpoint} {i : Nat} {s t : Supervisor σ} (h : Trusted e i s)
    (hrest : s.refreshing = false) (hclosed : s.closing = true → s.current = [])
    {candidates : List Endpoint}
    (hselects : ∀ f ∈ Strategy.selected (Strategy.offer s.strategy candidates), f ∈ candidates)
    (hfits : ∀ u f, BeginsAt s (.offer candidates) u f → u.CallsFit (Spares e i) f)
    (ht : s.offer candidates = some t) : Trusted e i t := by
  obtain ⟨u, hu, rfl⟩ := offer_eq_some_iff.mp ht
  have hafter : Trusted e i u := by
    refine (keptProvided_trusted e i).refresh (by exact hrest) hu
      (fun v f hv => hfits v f (.offer hv)) (fun hclosing => ⟨h.there, fun hin => ?_⟩)
      ⟨h.there, fun hin => ?_⟩
    · have hin : (e, i) ∈ s.current := hin
      simp [hclosed hclosing] at hin
    -- the first pass lets go of the unselected, and who is selected has been offered
    · obtain ⟨hin, hchosen⟩ := List.mem_filter.mp hin
      have hchosen : e ∈ Strategy.selected (s.adopt candidates).strategy := by simpa using hchosen
      exact (h.vouched hin).adopt (hselects e hchosen)
  exact republishIf_keeps (P := Trusted e i) (fun _ _ _ hv => ⟨hv.there, hv.vouched⟩) hafter _

/-- An event keeps a watch vouched for if the calls within it spare the watch. -/
theorem Trusted.step {e : Endpoint} {i : Nat} {s t : Supervisor σ} {event : Event}
    (h : Trusted e i s) (hrest : s.refreshing = false)
    (hclosed : s.closing = true → s.current = [])
    (hoffered : ∀ f ∈ s.inForce, f ∈ s.candidates)
    (hselects : ∀ candidates,
      ∀ f ∈ Strategy.selected (Strategy.offer s.strategy candidates), f ∈ candidates)
    (hfits : ∀ u f, BeginsAt s event u f → u.CallsFit (Spares e i) f) (k : Step s event t) :
    Trusted e i t := by
  cases k with
  | offer hoffer => exact h.offer hrest hclosed (hselects _) hfits hoffer
  | @report j score _ hreport =>
    cases hw : s.watches[j]? with
    | none =>
      rw [report, Supervisor.deliver.eq_1, hw] at hreport
      cases hreport
      exact h
    | some w =>
      exact h.deliver hrest hoffered hw (absurd · Bool.false_ne_true)
        (fun u f hu => hfits u f (.report hw hu)) hreport
  | @retire j _ hfree hretire =>
    obtain rfl | ⟨w, hw, hlive, hdeliver⟩ := retire_eq_some hretire
    · exact h
    -- a watch in force is not the one that ends
    · have hended : Trusted e i (s.modifyWatch j Watch.retire) :=
        h.modifyWatch fun hin hij => absurd (mem_barrier.mpr ⟨e, hij ▸ hin⟩) hfree
      have hend : (s.modifyWatch j Watch.retire).watches[j]? = some w.retire := by
        simp [Supervisor.modifyWatch, hw]
      exact hended.deliver hrest hoffered hend (fun _ => rfl)
        (fun u f hu => hfits u f (.retire hw hlive hu)) hdeliver
  | start _ =>
    obtain ⟨feed, outbox, heq⟩ := republish_eq { s with started := true }
    rw [finishStartup, heq]
    exact ⟨h.there, h.vouched⟩
  | beginClose _ => exact ⟨h.there, fun hin => absurd hin List.not_mem_nil⟩
  | enterJob hjob =>
    obtain ⟨f, rfl, horigin, hretired, -, hreported⟩ := eq_modifyWatch_of_enterJob hjob
    exact h.modifyWatch fun _ hij w hw =>
      ⟨horigin w (hij ▸ hw), hretired w (hij ▸ hw), hreported w (hij ▸ hw)⟩
  | releaseJob j id => exact h.modifyWatch fun _ _ _ _ => ⟨rfl, rfl, rfl⟩
  | _ => exact ⟨h.there, h.vouched⟩

/-! ## Main statement -/

/-- Between two events there is a score of every endpoint whose watch in force has reported, if the
endpoint was among all candidates that were offered within passes since the watch was begun. -/
theorem Run.scored_of_reported {terms : Terms} {strategy : σ}
    (hselects : Strategy.SelectsOffered strategy) {events : List Event} {s : Supervisor σ}
    (h : Run (fresh terms strategy) events s) {e : Endpoint} {i : Nat}
    (hspared : ∀ u candidates, Asked (fresh terms strategy) events s u (.offer candidates) →
      u.refreshing = true → i < u.watches.length → e ∈ candidates)
    (hin : (e, i) ∈ s.current) {w : Watch} (hw : s.watches[i]? = some w)
    (hreported : w.reported = true) : s.scored e = true := by
  have htrusted : Trusted e i s := by
    clear hin hw
    induction h with
    | nil => exact ⟨rfl, nofun⟩
    | @snoc events event t u h k ih =>
      have hearlier : Trusted e i t :=
        ih fun v candidates hasked => hspared v candidates (Occurs.later hasked (.single k))
      refine hearlier.step (Run.refreshing h) (Run.current_of_closing h)
        (Run.inForce_offered hselects h) (fun candidates => ?_) (fun v f => ?_) k
      · exact hselects _ _ ((Run.heard h).offer candidates)
      · refine callsFit_of_asks fun v call hasks hbusy => ?_
        cases call with
        | offer candidates =>
          exact hspared v candidates ⟨events, event, [], t, u, rfl, h, k, .nil, hasks⟩ hbusy
        | report j score => trivial
  obtain ⟨v, hv, -, -, hscored⟩ := htrusted.vouched hin
  obtain rfl : w = v := Option.some.inj (hw.symm.trans hv)
  exact hscored hreported

end HealthWatch.Supervisor
