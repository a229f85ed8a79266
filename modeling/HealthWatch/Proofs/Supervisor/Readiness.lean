import HealthWatch.Proofs.Supervisor.Calls
import HealthWatch.Proofs.Supervisor.Candidates
import HealthWatch.Proofs.Supervisor.Force
import HealthWatch.Proofs.Supervisor.Releases
import HealthWatch.Proofs.Supervisor.Replay
import HealthWatch.Proofs.Supervisor.Vouching
import HealthWatch.Strategy.Policy

/-!
# The end of the start

A supervisor has started when every watch has reported that was in force after the first candidates
were taken. A watch has reported from the first report through it on, of whatever score and whether
or not it counts, and also from its end on; nothing else does that, and nothing undoes it. The score
that it left stays while it is in force, except where a check offers candidates in the middle of a
pass (`first_watch_may_lose_its_score`).
-/

set_option autoImplicit false

namespace HealthWatch.Supervisor

variable {σ : Type}

/-- Is there such a watch, and has it reported or come to its end? -/
def hasReported (s : Supervisor σ) (i : Nat) : Bool :=
  (s.watches[i]?).any Watch.reported

/-- Some watches have reported if each of them has. -/
theorem allReported_iff {s : Supervisor σ} {watches : List Nat}
    (h : ∀ i ∈ watches, i < s.watches.length) :
    s.allReported watches = true ↔ ∀ i ∈ watches, s.hasReported i = true := by
  rw [allReported, List.all_eq_true]
  refine forall₂_congr fun i hi => ?_
  simp [hasReported, List.getElem?_eq_getElem (h i hi)]

/-- A change of a watch that does not concern reports leaves it as reported as it was. -/
theorem hasReported_modifyWatch {s : Supervisor σ} {i : Nat} {f : Watch → Watch}
    (hf : ∀ w, s.watches[i]? = some w → (f w).reported = w.reported) (j : Nat) :
    (s.modifyWatch i f).hasReported j = s.hasReported j :=
  any_modifyWatch hf j

/-- To mark a watch makes it one that has reported, and no other one. -/
theorem hasReported_markReported {s : Supervisor σ} {i : Nat} {w : Watch}
    (hw : s.watches[i]? = some w) (j : Nat) :
    (s.modifyWatch i Watch.markReported).hasReported j = (s.hasReported j || i == j) := by
  by_cases hij : i = j
  · subst hij
    simp [hasReported, modifyWatch, hw, Watch.markReported]
  · simp [hasReported, modifyWatch, hij]

variable [Strategy σ]

/-- A watch comes to have reported when it is marked, and by nothing else. -/
theorem broughtByReports_hasReported (i : Nat) :
    BroughtByReports (fun s : Supervisor σ => s.abandoned = false)
      (fun s => s.hasReported i = true) (fun _ _ => False) (fun j => j = i) where
  there _ h := h
  enterScore s w score final _ := by
    obtain ⟨book, feed, outbox, heq⟩ := enterScore_eq s w score final
    rw [heq]
    exact Adds.same id Iff.rfl
  markReported s j w hw h := by
    refine ⟨h, ?_⟩
    show (s.modifyWatch j Watch.markReported).hasReported i = true ↔ _
    rw [hasReported_markReported hw, Bool.or_eq_true, beq_iff_eq]
  retireWatch s j :=
    Adds.same id (by rw [hasReported_modifyWatch (f := Watch.retire) fun _ _ => rfl])
  judge _ _ _ := Adds.same id Iff.rfl
  adopt _ _ := Adds.same id Iff.rfl
  publish s := by
    obtain ⟨feed, outbox, heq⟩ := republishIf_eq s s.started
    rw [heq]
    exact Adds.same id Iff.rfl
  setRequested _ _ := Adds.same id Iff.rfl
  setRefreshing _ _ := Adds.same id Iff.rfl
  addWatch s e := by
    have hsame : (s.addWatch e).hasReported i = s.hasReported i := any_addWatch s rfl i
    exact Adds.same id (by rw [hsame])
  enlist _ _ _ := Adds.same id Iff.rfl
  releaseUnchosen _ _ := Adds.same id Iff.rfl
  noteChecked _ := Adds.same id Iff.rfl

/-- What an event comes to for a watch that has not reported: it is its end, or a report through the
watch is made at it. -/
def Settles (i : Nat) (s : Supervisor σ) (event : Event) : Prop :=
  (event = .retire i ∧ i < s.watches.length ∧ s.isRetired i = false) ∨
    ∃ u score, Asks s event u (.report i score) ∧ i < u.watches.length

/-- An event marks a watch if it is its end, or if a report through it is made at the event. -/
theorem bringsAt_iff_settles {s : Supervisor σ} {event : Event} {i : Nat} :
    BringsAt (fun _ _ => False) (fun j => j = i) s event ↔ s.Settles i event := by
  refine or_congr ?_ ?_
  · constructor
    · rintro ⟨j, w, rfl, hw, hlive, hj⟩
      obtain rfl : j = i := by simpa using hj
      obtain ⟨hlt, -⟩ := List.getElem?_eq_some_iff.mp hw
      exact ⟨rfl, hlt, by simp [isRetired, hw, hlive]⟩
    · rintro ⟨rfl, hlt, hlive⟩
      have hw : s.watches[i]? = some s.watches[i] := List.getElem?_eq_getElem hlt
      refine ⟨i, _, rfl, hw, ?_, Or.inr rfl⟩
      simpa [isRetired, hw] using hlive
  · constructor
    · rintro ⟨u, call, hasks, hbrings⟩
      cases call with
      | offer candidates => exact hbrings.elim
      | report j score =>
        obtain ⟨w, hw, hj⟩ := hbrings
        obtain rfl : j = i := by simpa using hj
        obtain ⟨hlt, -⟩ := List.getElem?_eq_some_iff.mp hw
        exact ⟨u, score, hasks, hlt⟩
    · rintro ⟨u, score, hasks, hlt⟩
      exact ⟨u, _, hasks, _, List.getElem?_eq_getElem hlt, Or.inr rfl⟩

/-- After an event a watch has reported if it had before, or if the event settles it. -/
theorem Step.adds_reported {s t : Supervisor σ} {event : Event} (k : Step s event t)
    (hrest : s.refreshing = false) (i : Nat) :
    Adds (fun s : Supervisor σ => s.abandoned = false) (fun s => s.hasReported i = true)
      (s.Settles i event) s t := by
  refine ((broughtByReports_hasReported i).step k hrest fun hplain => ?_).congr
    bringsAt_iff_settles
  cases k with
  | start _ =>
    obtain ⟨feed, outbox, heq⟩ := republish_eq { s with started := true }
    rw [finishStartup, heq]
    exact Adds.same id Iff.rfl
  | enterJob hjob =>
    obtain ⟨f, rfl, -, -, -, hreported⟩ := eq_modifyWatch_of_enterJob hjob
    exact Adds.same id (by rw [hasReported_modifyWatch hreported])
  | releaseJob j job =>
    have hsame : (s.releaseJob j job).hasReported i = s.hasReported i :=
      hasReported_modifyWatch (f := fun w => { w with roster := w.roster.release job })
        (fun _ _ => rfl) i
    exact Adds.same id (by rw [hsame])
  | offer => cases hplain
  | report => cases hplain
  | retire => cases hplain
  | _ => exact Adds.same id Iff.rfl

/-- After a run a watch has reported if it had before, or if one of the events has settled it. -/
theorem Run.reported_iff {s t : Supervisor σ} {events : List Event} (h : Run s events t)
    (hrest : s.refreshing = false) (hthere : s.abandoned = false) (i : Nat) :
    t.hasReported i = true ↔
      s.hasReported i = true ∨ Occurs s events t fun before event => before.Settles i event :=
  (h.adds (fun _ _ _ _ hidle k => k.adds_reported hidle i) (List.Subset.refl events) hrest hthere).2

/-! ## Watches that are waited for -/

/-- No move takes a watch away. -/
theorem Move.length_watches {s t : Supervisor σ} (m : Move s t) :
    s.watches.length ≤ t.watches.length := by
  cases m with
  | addWatch e => simp [Supervisor.addWatch]
  | modifyWatch => simp [Supervisor.modifyWatch]
  | republish =>
    obtain ⟨feed, outbox, heq⟩ := republish_eq s
    simp [heq]
  | _ => exact Nat.le_refl _

/-- No event takes a watch away. -/
theorem Step.length_watches {s t : Supervisor σ} {event : Event} (k : Step s event t)
    (hrest : s.refreshing = false) {i : Nat} (hi : i < s.watches.length) : i < t.watches.length :=
  (k.moves hrest).keeps (P := fun u => i < u.watches.length)
    (fun _ _ hu m => Nat.lt_of_lt_of_le hu m.length_watches) hi

/-- A watch that is there and not retired has reported by its end, if that comes. -/
theorem Run.settled_of_retire {s t : Supervisor σ} {events : List Event} (h : Run s events t)
    (hrest : s.refreshing = false) (hthere : s.abandoned = false) {i : Nat}
    (hi : i < s.watches.length) (hlive : s.isRetired i = false) (hend : Event.retire i ∈ events) :
    t.hasReported i = true := by
  suffices hall : (Event.retire i ∈ events → t.isRetired i = true) ∧
      (t.isRetired i = true → t.hasReported i = true) ∧ i < t.watches.length ∧
      t.abandoned = false ∧ t.refreshing = false from hall.2.1 (hall.1 hend)
  clear hend
  induction h with
  | nil =>
    refine ⟨nofun, fun hretired => ?_, hi, hthere, hrest⟩
    cases hlive.symm.trans hretired
  | @snoc events event t u _ k ih =>
    obtain ⟨hretired, hreported, hi, hthere, hrest⟩ := ih
    obtain ⟨hthere', hiff⟩ := k.adds_reported hrest i hthere
    refine ⟨fun hin => ?_, fun hu => ?_, k.length_watches hrest hi, hthere', k.refreshing hrest⟩
    · rcases List.mem_append.mp hin with hold | hnew
      · exact k.isRetired_mono hrest (hretired hold)
      · obtain rfl := List.mem_singleton.mp hnew
        cases k with
        | retire _ hretire => simp [isRetired_of_retire hrest hi hretire i]
    · rcases k.isRetired_cases hrest with hsame | ⟨j, rfl, hmore⟩
      · rw [hsame] at hu
        exact hiff.mpr (Or.inl (hreported hu))
      · cases hold : t.isRetired i with
        | true => exact hiff.mpr (Or.inl (hreported hold))
        | false =>
          -- it ends at this event
          obtain rfl : i = j := by simpa [hmore, hold] using hu
          exact hiff.mpr (Or.inr (Or.inl ⟨rfl, hi, hold⟩))

/-- A watch that was in force when the first candidates had been taken has reported if and only if a
report through it was made at any time, or it has come to its end since. -/
theorem Run.waited_for_iff {terms : Terms} {strategy : σ} {earlier later : List Event}
    {candidates : List Endpoint} {before first s : Supervisor σ}
    (hearlier : Run (fresh terms strategy) earlier before)
    (hload : Step before (.offer candidates) first) (hlater : Run first later s) {i : Nat}
    (hi : i ∈ first.barrier) :
    s.hasReported i = true ↔
      (∃ u score, Asked (fresh terms strategy) (earlier ++ .offer candidates :: later) s u
        (.report i score) ∧ i < u.watches.length) ∨ Event.retire i ∈ later := by
  have hfirst : Run (fresh terms strategy) (earlier ++ [.offer candidates]) first :=
    hearlier.snoc hload
  have hsplit : earlier ++ .offer candidates :: later =
      earlier ++ [.offer candidates] ++ later := by simp
  have hwhole : Run (fresh terms strategy) (earlier ++ [.offer candidates] ++ later) s :=
    hfirst.append hlater
  obtain ⟨e, hin⟩ := mem_barrier.mp hi
  obtain ⟨w, hw, -, hlive⟩ := hfirst.manned.live e i hin
  obtain ⟨hlt, -⟩ := List.getElem?_eq_some_iff.mp hw
  have hlive : first.isRetired i = false := by simp [isRetired, hw, hlive]
  rw [hsplit]
  constructor
  · intro hreported
    -- it was settled by the time of the first candidates, or in an event since
    rcases (hlater.reported_iff hfirst.refreshing hfirst.abandoned i).mp hreported with
      hbefore | ⟨sofar, event, rest, x, y, rfl, hx, hxy, hy, hsettles⟩
    · rcases (hfirst.reported_iff rfl rfl i).mp hbefore with
        hfresh | ⟨sofar, event, rest, x, y, heq, hx, hxy, hy, hsettles⟩
      · simp [hasReported, fresh] at hfresh
      · rcases hsettles with ⟨rfl, hthere, -⟩ | ⟨u, score, hasks, hthere⟩
        · -- it would have been retired when the first candidates had been taken
          have hended : y.isRetired i = true := by
            cases hxy with
            | retire _ hretire => simp [isRetired_of_retire hx.refreshing hthere hretire i]
          cases hlive.symm.trans (hy.isRetired_mono (hxy.refreshing hx.refreshing) hended)
        · have hasked : Occurs (fresh terms strategy) (earlier ++ [.offer candidates]) first
              fun before event => Asks before event u (.report i score) :=
            ⟨sofar, event, rest, x, y, heq, hx, hxy, hy, hasks⟩
          exact Or.inl ⟨u, score, hasked.later hlater, hthere⟩
    · rcases hsettles with ⟨rfl, -, -⟩ | ⟨u, score, hasks, hthere⟩
      · exact Or.inr (by simp)
      · have hasked : Occurs first (sofar ++ event :: rest) s
            fun before event => Asks before event u (.report i score) :=
          ⟨sofar, event, rest, x, y, rfl, hx, hxy, hy, hasks⟩
        exact Or.inl ⟨u, score, Occurs.earlier hfirst hasked, hthere⟩
  · rintro (⟨u, score, hasked, hthere⟩ | hend)
    · refine (hwhole.reported_iff rfl rfl i).mpr (Or.inr ?_)
      exact hasked.imp fun _ _ hasks => Or.inr ⟨u, score, hasks, hthere⟩
    · exact hlater.settled_of_retire hfirst.refreshing hfirst.abandoned hlt hlive hend

/-- Where no check offers candidates, none are offered in the middle of a pass. -/
theorem Asked.refreshing_of_quiet {terms : Terms} (hquiet : Quiet terms) {strategy : σ}
    {events : List Event} {s u : Supervisor σ} {candidates : List Endpoint}
    (h : Asked (fresh terms strategy) events s u (.offer candidates)) : u.refreshing = false := by
  obtain ⟨earlier, event, later, before, after, -, hbefore, -, -, hasks⟩ := h
  cases hasks with
  | offer => exact Run.refreshing hbefore
  | @check _ t f done rest _ hbegins hcalls =>
    have hsame : t.terms = terms := hbegins.underWay.1.trans (Run.terms hbefore)
    rw [hsame] at hcalls
    exact absurd (hcalls ▸ by simp) (hquiet (t.watches.map Watch.origin) f candidates)

/-! ## Main statement -/

/-- The start of a supervisor that checks all candidates or a bounded share of them, whatever
happens and in whatever order. The first candidates have been taken, and the watches in force then
are those that the start waits for. It can be over if and only if each of them has reported, while
the candidates were taken or at any other time, or has come to its end since; so watches begun later
do not count, and one that was let go holds up nothing any more once it has ended. There is then a
score of the endpoint of each of them that is in force still, if the endpoint was among all
candidates that were offered in the middle of a pass since the watch was begun. -/
theorem start_waits_for_the_first_watches (terms : Terms) (quota : Option Quota)
    {earlier later : List Event} {candidates : List Endpoint} {before first s : Supervisor Policy}
    (hearlier : Run (fresh terms (Policy.ofQuota quota)) earlier before)
    (hload : Step before (.offer candidates) first) (hlater : Run first later s) :
    (s.allReported first.barrier = true ↔ ∀ i ∈ first.barrier,
      (∃ u score, Asked (fresh terms (Policy.ofQuota quota))
        (earlier ++ .offer candidates :: later) s u (.report i score) ∧ i < u.watches.length) ∨
        Event.retire i ∈ later) ∧
    (∀ i ∈ first.barrier, i < first.watches.length ∧
      (Event.retire i ∈ later → s.allReported [i] = true)) ∧
    (s.allReported first.barrier = true → ∀ e i, (e, i) ∈ s.current → i ∈ first.barrier →
      (∀ u offered, Asked (fresh terms (Policy.ofQuota quota))
        (earlier ++ .offer candidates :: later) s u (.offer offered) →
          u.refreshing = true → i < u.watches.length → e ∈ offered) →
      (s.health.score? e).isSome = true) := by
  have hfirst : Run (fresh terms (Policy.ofQuota quota)) (earlier ++ [.offer candidates]) first :=
    hearlier.snoc hload
  have hsplit : earlier ++ .offer candidates :: later =
      earlier ++ [.offer candidates] ++ later := by simp
  have hwhole : Run (fresh terms (Policy.ofQuota quota))
      (earlier ++ .offer candidates :: later) s := hsplit ▸ hfirst.append hlater
  have hthere (i : Nat) (hi : i ∈ first.barrier) : i < first.watches.length := by
    obtain ⟨e, hin⟩ := mem_barrier.mp hi
    obtain ⟨w, hw, -⟩ := hfirst.manned.live e i hin
    exact (List.getElem?_eq_some_iff.mp hw).1
  have hstill (i : Nat) (hi : i ∈ first.barrier) : i < s.watches.length :=
    (hlater.keeps (P := fun t => i < t.watches.length ∧ t.refreshing = false)
      (fun _ _ _ ht k => ⟨k.length_watches ht.2 ht.1, k.refreshing ht.2⟩)
      ⟨hthere i hi, hfirst.refreshing⟩).1
  refine ⟨?_, ?_, ?_⟩
  · rw [allReported_iff hstill]
    exact forall₂_congr fun i hi => hearlier.waited_for_iff hload hlater hi
  · intro i hi
    refine ⟨hthere i hi, fun hend => ?_⟩
    have hsettled := (hearlier.waited_for_iff hload hlater hi).mpr (Or.inr hend)
    rw [allReported_iff (by simpa using hstill i hi)]
    simpa using hsettled
  · intro hall e i hin hi hspared
    -- a settled watch that is in force keeps its score if offers within passes spare its endpoint
    have hsettled := (allReported_iff hstill).mp hall i hi
    obtain ⟨w, hw, hreported⟩ := (Option.any_eq_true _ _).mp hsettled
    exact hwhole.scored_of_reported (Policy.selectsOffered (Policy.unused_ofQuota quota)) hspared
      hin hw hreported

/-- Three watches are waited for. The first reports while it is being begun, the second a failure
later on, and the third is let go and ends. A fourth is begun meanwhile and has yet to report. -/
theorem start_does_not_wait_for_the_fourth_watch :
    let a : Endpoint := { host := "a" }
    let b : Endpoint := { host := "b" }
    let c : Endpoint := { host := "c" }
    let d : Endpoint := { host := "d" }
    let terms : Terms :=
      { greeting := fun before e => if e = a then [.report before.length 1.0] else [] }
    let later : List Event := [.offer [a, b, d], .report 1 0.0, .retire 2]
    ∃ before first s, Run (fresh terms (Policy.ofQuota none)) [] before ∧
      Step before (.offer [a, b, c]) first ∧ Run first later s ∧ first.barrier = [0, 1, 2] ∧
      s.barrier = [0, 1, 3] ∧ s.allReported [3] = false ∧ s.allReported first.barrier = true ∧
      (∀ i ∈ first.barrier,
        (∃ u score, Asked (fresh terms (Policy.ofQuota none)) (.offer [a, b, c] :: later) s u
          (.report i score) ∧ i < u.watches.length) ∨ Event.retire i ∈ later) ∧
      (s.health.score? b).isSome = true := by
  intro a b c d terms later
  have hquiet : Quiet terms := by
    intro before e candidates
    by_cases he : e = a <;> simp [terms, he]
  obtain ⟨before, first, hearlier, hload, hbarrier, hreplay⟩ :
      ∃ before first, Run (fresh terms (Policy.ofQuota none)) [] before ∧
        Step before (.offer [a, b, c]) first ∧ first.barrier = [0, 1, 2] ∧
        (first.replay 9 later).any (fun s => decide (s.barrier = [0, 1, 3] ∧
          s.allReported [3] = false ∧ s.allReported [0, 1, 2] = true ∧ (b, 1) ∈ s.current)) =
          true :=
    exists_step_of_replay (n := 9) (by decide)
  obtain ⟨s, hlater, hforce, hlast, hall, hin⟩ :=
    exists_run_of_replay (hload.refreshing hearlier.refreshing) hreplay
  have hall : s.allReported first.barrier = true := by rwa [hbarrier]
  obtain ⟨hiff, -, hscored⟩ :=
    start_waits_for_the_first_watches terms none hearlier hload hlater
  refine ⟨before, first, s, hearlier, hload, hlater, hbarrier, hforce, hlast, hall, hiff.mp hall,
    hscored hall b 1 hin (by simp [hbarrier]) fun u offered hasked hbusy => ?_⟩
  cases hbusy.symm.trans (hasked.refreshing_of_quiet hquiet)

/-- The check of an endpoint that is new has another one dropped and taken back in the middle of a
pass. The watch on that one was waited for, has reported and is in force still, but its score is
gone. -/
theorem first_watch_may_lose_its_score :
    let a : Endpoint := { host := "a" }
    let c : Endpoint := { host := "c" }
    let terms : Terms :=
      { greeting := fun _ e => if e = c then [.offer [c], .offer [a, c]] else [] }
    ∃ before first s, Run (fresh terms (Policy.ofQuota none)) [] before ∧
      Step before (.offer [a]) first ∧ Run first [.report 0 1.0, .offer [a, c]] s ∧
      s.allReported first.barrier = true ∧ (a, 0) ∈ s.current ∧ 0 ∈ first.barrier ∧
      s.health.score? a = none := by
  intro a c terms
  obtain ⟨before, first, hearlier, hload, hbarrier, hreplay⟩ :
      ∃ before first, Run (fresh terms (Policy.ofQuota none)) [] before ∧
        Step before (.offer [a]) first ∧ first.barrier = [0] ∧
        (first.replay 9 [.report 0 1.0, .offer [a, c]]).any (fun s => decide (
          s.allReported [0] = true ∧ (a, 0) ∈ s.current ∧ (s.health.score? a).isNone = true)) =
          true :=
    exists_step_of_replay (n := 9) (by decide)
  obtain ⟨s, hlater, hall, hin, hnone⟩ :=
    exists_run_of_replay (hload.refreshing hearlier.refreshing) hreplay
  exact ⟨before, first, s, hearlier, hload, hlater, by rwa [hbarrier], hin, by simp [hbarrier],
    Option.isNone_iff_eq_none.mp hnone⟩

end HealthWatch.Supervisor
