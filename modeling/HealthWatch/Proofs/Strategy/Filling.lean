import HealthWatch.Strategy.BoundedPool
import Mathlib.Data.List.Induction
import Mathlib.Data.List.Perm.Subperm
import Mathlib.Data.List.Nodup

/-!
# How a bounded pool is filled

Every change of a pool's selection keeps some of the selected endpoints and fills the places left
over from the queue of the other candidates. The queue is made in one pass over the candidates. It
holds the distinct ones outside the selection in their order (`outside`), those that are not marked
before those that are (`queue_eq`). So a selection never holds an endpoint twice or one that is no
candidate, and while a candidate is left outside, every place is taken: `Filled`.

From this follows what a failure of a selected endpoint does: the first in the queue for its place,
its `successor`, comes in for it and nobody else moves (`judge_failure`). It changes nothing only if
the endpoint is marked already, is the one selected last, and succeeds itself (`judge_eq_self_iff`).
-/

set_option autoImplicit false

namespace HealthWatch.BoundedPool

/-! ## The queue -/

/-- The candidates outside a selection, each once, in the order in which they come first. -/
def outside (candidates selected : List Endpoint) : List Endpoint :=
  match candidates with
  | [] => []
  | e :: rest => if selected.contains e then outside rest selected
    else e :: outside rest (e :: selected)

/-- An endpoint is outside a selection if it is a candidate and not selected. -/
theorem mem_outside {candidates selected : List Endpoint} {e : Endpoint} :
    e ∈ outside candidates selected ↔ e ∈ candidates ∧ e ∉ selected := by
  induction candidates generalizing selected with
  | nil => simp [outside]
  | cons f rest ih =>
    rw [outside]
    split
    · rename_i hf
      have hf : f ∈ selected := by simpa using hf
      rw [ih]
      grind
    · rename_i hf
      have hf : f ∉ selected := by simpa using hf
      rw [List.mem_cons, ih]
      grind

/-- A candidate that is offered twice is outside only once. -/
theorem nodup_outside (candidates selected : List Endpoint) :
    (outside candidates selected).Nodup := by
  induction candidates generalizing selected with
  | nil => simp [outside]
  | cons f rest ih =>
    rw [outside]
    split
    · exact ih selected
    · refine List.nodup_cons.mpr ⟨?_, ih (f :: selected)⟩
      simp [mem_outside]

/-- One candidate more is outside unless it was seen before. -/
theorem outside_concat (candidates selected : List Endpoint) (e : Endpoint) :
    outside (candidates ++ [e]) selected =
      if e ∈ candidates ∨ e ∈ selected then outside candidates selected
      else outside candidates selected ++ [e] := by
  induction candidates generalizing selected with
  | nil => simp [outside]
  | cons f rest ih =>
    rw [List.cons_append, outside, outside]
    by_cases hf : f ∈ selected
    · have hskip : (e ∈ f :: rest ∨ e ∈ selected) ↔ (e ∈ rest ∨ e ∈ selected) := by grind
      simp only [List.contains_iff_mem, hf, if_true, ih, hskip]
    · have hmove : (e ∈ f :: rest ∨ e ∈ selected) ↔ (e ∈ rest ∨ e ∈ f :: selected) := by grind
      simp only [List.contains_iff_mem, hf, if_false, ih, hmove]
      split <;> simp

/-- The pass over the candidates leaves those outside what is kept, parted by their marks. -/
theorem foldl_join (p : BoundedPool) (kept candidates : List Endpoint) :
    candidates.foldl (p.join kept) {} =
      { free := (outside candidates kept).filter fun e => !p.unhealthy.contains e
        marked := (outside candidates kept).filter p.unhealthy.contains } := by
  induction candidates using List.reverseRecOn with
  | nil => rfl
  | append_singleton seen e ih =>
    rw [List.foldl_append, ih, List.foldl_cons, List.foldl_nil, join, outside_concat]
    -- who is kept or in line was seen already, or is kept
    have hseen : (kept.contains e ||
        ((outside seen kept).filter fun e => !p.unhealthy.contains e).contains e ||
        ((outside seen kept).filter p.unhealthy.contains).contains e) = true ↔
          e ∈ seen ∨ e ∈ kept := by
      simp only [Bool.or_eq_true, List.contains_iff_mem, List.mem_filter, mem_outside]
      grind
    by_cases h : e ∈ seen ∨ e ∈ kept
    · rw [if_pos (hseen.mpr h), if_pos h]
    · rw [if_neg (mt hseen.mp h), if_neg h, List.filter_append, List.filter_append]
      by_cases hmarked : e ∈ p.unhealthy <;> simp [hmarked]

/-- In the queue the unmarked candidates stand before the marked ones. -/
theorem queue_eq (p : BoundedPool) (kept : List Endpoint) :
    p.queue kept =
      ((outside p.candidates kept).filter fun e => !p.unhealthy.contains e) ++
        (outside p.candidates kept).filter p.unhealthy.contains := by
  rw [queue, foldl_join]

/-- All candidates that are not kept are in the queue. -/
theorem mem_queue {p : BoundedPool} {kept : List Endpoint} {e : Endpoint} :
    e ∈ p.queue kept ↔ e ∈ p.candidates ∧ e ∉ kept := by
  rw [← mem_outside]
  simp only [queue_eq, List.mem_append, List.mem_filter]
  grind

/-- Nobody is in the queue twice. -/
theorem nodup_queue (p : BoundedPool) (kept : List Endpoint) : (p.queue kept).Nodup := by
  have houtside := nodup_outside p.candidates kept
  rw [queue_eq]
  refine List.nodup_append.mpr ⟨houtside.filter _, houtside.filter _, ?_⟩
  intro e he f hf hef
  subst hef
  have hfree := (List.mem_filter.mp he).2
  have hmarked := (List.mem_filter.mp hf).2
  rw [hmarked] at hfree
  cases hfree

/-! ## Filling -/

/-- The selection holds candidates only, each once, and as many as there are places, or all. -/
structure Filled (p : BoundedPool) : Prop where
  once : p.selected.Nodup
  offered : ∀ e ∈ p.selected, e ∈ p.candidates
  fits : p.selected.length ≤ p.places
  full : ∀ e ∈ p.candidates, e ∉ p.selected → p.selected.length = p.places
  known : ∀ e ∈ p.unhealthy, e ∈ p.candidates

/-- A pool that was offered nothing is filled. -/
theorem filled_unused (quota : Quota) : Filled { quota := quota } :=
  ⟨by simp, by simp, by simp, by simp, by simp⟩

/-- A pool whose places left over are filled from the queue is filled. -/
theorem filled_of_kept {p : BoundedPool} {kept : List Endpoint} (honce : kept.Nodup)
    (hoffered : ∀ e ∈ kept, e ∈ p.candidates) (hfits : kept.length ≤ p.places)
    (hknown : ∀ e ∈ p.unhealthy, e ∈ p.candidates) :
    Filled { p with selected := kept ++ (p.queue kept).take (p.places - kept.length) } := by
  refine ⟨?_, ?_, ?_, ?_, hknown⟩
  · refine List.nodup_append.mpr
      ⟨honce, (nodup_queue p kept).sublist (List.take_sublist _ _), ?_⟩
    intro e he f hf hef
    subst hef
    exact (mem_queue.mp (List.mem_of_mem_take hf)).2 he
  · intro e he
    rcases List.mem_append.mp he with he | he
    · exact hoffered e he
    · exact (mem_queue.mp (List.mem_of_mem_take he)).1
  · show (kept ++ (p.queue kept).take (p.places - kept.length)).length ≤ p.places
    have htaken := List.length_take_le (p.places - kept.length) (p.queue kept)
    rw [List.length_append]
    omega
  · intro e he hout
    show (kept ++ (p.queue kept).take (p.places - kept.length)).length = p.places
    obtain ⟨hkept, hqueue⟩ := not_or.mp (mt List.mem_append.mpr hout)
    -- the endpoint waits in the queue, so the queue is longer than the places left over
    have hlong : p.places - kept.length ≤ (p.queue kept).length := by
      by_contra hshort
      rw [List.take_of_length_le (by omega)] at hqueue
      exact hqueue (mem_queue.mpr ⟨he, hkept⟩)
    rw [List.length_append, List.length_take_of_le hlong]
    omega

/-- A pool is filled however the kept endpoints are chosen among the candidates. -/
theorem filled_fill {p : BoundedPool} {kept : List Endpoint} (honce : kept.Nodup)
    (hoffered : ∀ e ∈ kept, e ∈ p.candidates) (hknown : ∀ e ∈ p.unhealthy, e ∈ p.candidates) :
    (p.fill kept).Filled :=
  filled_of_kept (honce.sublist (List.take_sublist _ _))
    (fun e he => hoffered e (List.mem_of_mem_take he)) (List.length_take_le _ _) hknown

/-- An offer leaves a filled pool. -/
theorem Filled.offer {p : BoundedPool} (h : p.Filled) (candidates : List Endpoint) :
    (p.offer candidates).Filled := by
  refine filled_fill (h.once.filter _) ?_ ?_
  · intro e he
    simpa using (List.mem_filter.mp he).2
  · intro e he
    simpa using (List.mem_filter.mp he).2

/-- A pool that loses a mark stays filled. -/
theorem Filled.clear {p : BoundedPool} (h : p.Filled) (e : Endpoint) : (p.clear e).Filled := by
  refine ⟨h.once, h.offered, h.fits, h.full, ?_⟩
  intro f hf
  exact h.known f (List.mem_filter.mp hf).1

/-- After an endpoint is marked, it and those marked before are. -/
theorem mem_mark {p : BoundedPool} {e f : Endpoint} :
    f ∈ (p.mark e).unhealthy ↔ f = e ∨ f ∈ p.unhealthy := by
  unfold mark
  split
  · rename_i he
    have he : e ∈ p.unhealthy := by simpa using he
    grind
  · simp [or_comm]

/-- A mark changes neither the candidates nor the quota. -/
theorem candidates_mark (p : BoundedPool) (e : Endpoint) :
    (p.mark e).candidates = p.candidates ∧ (p.mark e).quota = p.quota := by
  unfold mark
  split <;> exact ⟨rfl, rfl⟩

/-- A mark leaves as many places as there were. -/
theorem places_mark (p : BoundedPool) (e : Endpoint) : (p.mark e).places = p.places := by
  rw [places, places, (candidates_mark p e).1, (candidates_mark p e).2]

/-- A selected endpoint that fails leaves a filled pool. -/
theorem Filled.replace {p : BoundedPool} (h : p.Filled) {e : Endpoint} (he : e ∈ p.selected) :
    ((p.mark e).fill (p.selected.erase e)).Filled := by
  refine filled_fill (h.once.erase e) ?_ ?_
  · intro f hf
    rw [(candidates_mark p e).1]
    exact h.offered f (List.mem_of_mem_erase hf)
  · intro f hf
    rw [(candidates_mark p e).1]
    rcases mem_mark.mp hf with rfl | hf
    · exact h.offered f he
    · exact h.known f hf

/-- A report leaves a filled pool. -/
theorem Filled.judge {p : BoundedPool} (h : p.Filled) (e : Endpoint) (score : Float) :
    (p.judge e score).1.Filled := by
  unfold BoundedPool.judge
  split
  · exact h.clear e
  · split
    · rename_i he
      exact h.replace (by simpa using he)
    · exact h

/-- A report changes neither the candidates nor the number of places. -/
theorem candidates_judge (p : BoundedPool) (e : Endpoint) (score : Float) :
    (p.judge e score).1.candidates = p.candidates ∧ (p.judge e score).1.places = p.places := by
  unfold judge
  split
  · exact ⟨rfl, rfl⟩
  · split
    · exact ⟨(candidates_mark p e).1, places_mark p e⟩
    · exact ⟨rfl, rfl⟩

/-- A report leaves the quota. -/
theorem quota_judge (p : BoundedPool) (e : Endpoint) (score : Float) :
    (p.judge e score).1.quota = p.quota := by
  unfold judge
  split
  · rfl
  · split
    · exact (candidates_mark p e).2
    · rfl

/-! ## What a report changes -/

/-- Two lists pass for the same if the same endpoints are in them, in whatever order. -/
theorem sameEndpoints_iff {a b : List Endpoint} :
    sameEndpoints a b = true ↔ ∀ e, e ∈ a ↔ e ∈ b := by
  simp only [sameEndpoints, Bool.and_eq_true, List.all_eq_true, List.contains_iff_mem]
  exact ⟨fun h e => ⟨h.1 e, h.2 e⟩, fun h => ⟨fun e => (h e).mp, fun e => (h e).mpr⟩⟩

/-- A report asks for a pass exactly if it changes which endpoints are selected. -/
theorem moved_judge (p : BoundedPool) (e : Endpoint) (score : Float) :
    (p.judge e score).2 = !sameEndpoints p.selected (p.judge e score).1.selected := by
  have hself : sameEndpoints p.selected p.selected = true := sameEndpoints_iff.mpr fun _ => Iff.rfl
  unfold judge
  split
  · simp [clear, hself]
  · split
    · rfl
    · simp [hself]

/-- A report that asks for no pass leaves the same endpoints selected. -/
theorem mem_selected_judge {p : BoundedPool} {e : Endpoint} {score : Float}
    (h : (p.judge e score).2 = false) (f : Endpoint) :
    f ∈ (p.judge e score).1.selected ↔ f ∈ p.selected := by
  rw [moved_judge, Bool.not_eq_false'] at h
  exact (sameEndpoints_iff.mp h f).symm

/-! ## A failure of a selected endpoint -/

/-- The endpoint that takes the place of a selected one when this fails. -/
def successor (p : BoundedPool) (e : Endpoint) : Option Endpoint :=
  ((p.mark e).queue (p.selected.erase e)).head?

/-- The pool after a failure of `e`, with `f` in its place. -/
def swap (p : BoundedPool) (e f : Endpoint) : BoundedPool :=
  { p.mark e with selected := p.selected.erase e ++ [f] }

/-- A swap leaves the candidates. -/
theorem candidates_swap (p : BoundedPool) (e f : Endpoint) :
    (p.swap e f).candidates = p.candidates :=
  (candidates_mark p e).1

/-- A swap marks the endpoint that failed. -/
theorem mem_unhealthy_swap {p : BoundedPool} {e f g : Endpoint} :
    g ∈ (p.swap e f).unhealthy ↔ g = e ∨ g ∈ p.unhealthy :=
  mem_mark

/-- The successor of an endpoint is a candidate that is not selected beside it. -/
theorem mem_of_successor {p : BoundedPool} {e f : Endpoint} (hf : p.successor e = some f) :
    f ∈ p.candidates ∧ f ∉ p.selected.erase e := by
  have hwaits := mem_queue.mp (List.mem_of_mem_head? hf)
  rwa [(candidates_mark p e).1] at hwaits

/-- The place that a failing endpoint leaves goes to its successor: there is one place to fill, or
nobody but the endpoint itself to fill places with. -/
theorem Filled.exists_successor {p : BoundedPool} (h : p.Filled) {e : Endpoint}
    (he : e ∈ p.selected) :
    ∃ f, p.successor e = some f ∧ (p.mark e).fill (p.selected.erase e) = p.swap e f := by
  have hplaces : (p.mark e).places = p.places := places_mark p e
  have hcandidates : (p.mark e).candidates = p.candidates := (candidates_mark p e).1
  have hlength : (p.selected.erase e).length + 1 = p.selected.length :=
    List.length_erase_add_one he
  have hfits := h.fits
  have hkept : (p.selected.erase e).take (p.mark e).places = p.selected.erase e :=
    List.take_of_length_le (by omega)
  have hwaits : e ∈ (p.mark e).queue (p.selected.erase e) := by
    rw [mem_queue, hcandidates]
    exact ⟨h.offered e he, h.once.not_mem_erase⟩
  have honce := nodup_queue (p.mark e) (p.selected.erase e)
  rw [successor, fill, hkept, hplaces]
  cases hqueue : (p.mark e).queue (p.selected.erase e) with
  | nil =>
    rw [hqueue] at hwaits
    cases hwaits
  | cons f others =>
    refine ⟨f, rfl, ?_⟩
    have hone : (f :: others).take (p.places - (p.selected.erase e).length) = [f] := by
      by_cases hfull : p.selected.length = p.places
      · have hroom : p.places - (p.selected.erase e).length = 1 := by omega
        rw [hroom, List.take_succ_cons, List.take_zero]
      · -- no candidate was outside, so the queue holds the endpoint alone
        have halone : ∀ g ∈ f :: others, g = e := by
          intro g hg
          rw [← hqueue, mem_queue, hcandidates] at hg
          by_contra hne
          exact hfull (h.full g hg.1 (mt (List.mem_erase_of_ne hne).mpr hg.2))
        have hnone : others = [] := by
          refine List.eq_nil_iff_forall_not_mem.mpr fun g hg => ?_
          rw [hqueue, List.nodup_cons] at honce
          have hge := halone g (List.mem_cons_of_mem f hg)
          have hfe := halone f List.mem_cons_self
          exact honce.1 (hfe ▸ hge ▸ hg)
        rw [hnone]
        exact List.take_of_length_le (by rw [List.length_singleton]; omega)
    rw [hone]
    rfl

/-- A failure of a selected endpoint puts its successor in its place, and asks for a pass unless the
endpoint succeeds itself. -/
theorem Filled.judge_failure {p : BoundedPool} (h : p.Filled) {e : Endpoint}
    (he : e ∈ p.selected) {score : Float} (hfail : ¬0.0 < score) :
    ∃ f, p.successor e = some f ∧ p.judge e score = (p.swap e f, decide (f ≠ e)) := by
  obtain ⟨f, hf, hfill⟩ := h.exists_successor he
  have hout := (mem_of_successor hf).2
  have hsame : sameEndpoints p.selected (p.swap e f).selected = decide (f = e) := by
    show sameEndpoints p.selected (p.selected.erase e ++ [f]) = decide (f = e)
    rw [Bool.eq_iff_iff, sameEndpoints_iff, decide_eq_true_iff]
    constructor
    · intro hsame
      by_contra hne
      have hin : f ∈ p.selected := (hsame f).mpr (by simp)
      exact hout ((List.mem_erase_of_ne hne).mpr hin)
    · rintro rfl g
      by_cases hgf : g = f
      · simp [hgf, he]
      · simp [List.mem_erase_of_ne hgf, hgf]
  refine ⟨f, hf, ?_⟩
  rw [BoundedPool.judge, if_neg hfail, if_pos (by simpa using he)]
  dsimp only
  rw [hfill, hsame, decide_not]

/-- What a report does: a good one clears a mark, a failure of an endpoint that is not selected does
nothing, and one of a selected endpoint puts its successor in its place. -/
theorem Filled.judge_cases {p : BoundedPool} (h : p.Filled) (e : Endpoint) (score : Float) :
    p.judge e score = (p.clear e, false) ∨
      (e ∉ p.selected ∧ p.judge e score = (p, false)) ∨
      (e ∈ p.selected ∧ ∃ f, p.successor e = some f ∧
        p.judge e score = (p.swap e f, decide (f ≠ e))) := by
  by_cases hgood : 0.0 < score
  · left
    rw [BoundedPool.judge, if_pos hgood]
  by_cases he : e ∈ p.selected
  · exact Or.inr (Or.inr ⟨he, h.judge_failure he hgood⟩)
  · right; left
    rw [BoundedPool.judge, if_neg hgood, if_neg (by simpa using he)]
    exact ⟨he, rfl⟩

/-- A report that asks for a pass puts an endpoint out of the selection. -/
theorem exists_put_out {p : BoundedPool} (h : p.Filled) {e : Endpoint} {score : Float}
    (hmoved : (p.judge e score).2 = true) :
    ∃ f ∈ p.selected, f ∉ (p.judge e score).1.selected := by
  rcases h.judge_cases e score with hjudge | ⟨-, hjudge⟩ | ⟨he, f, -, hjudge⟩
  · rw [hjudge] at hmoved
    cases hmoved
  · rw [hjudge] at hmoved
    cases hmoved
  · rw [hjudge] at hmoved ⊢
    have hne : f ≠ e := of_decide_eq_true hmoved
    refine ⟨e, he, ?_⟩
    show e ∉ p.selected.erase e ++ [f]
    simp [h.once.not_mem_erase, hne.symm]

/-- The others stay selected when an endpoint reports. -/
theorem Filled.mem_selected_judge_of_ne {p : BoundedPool} (h : p.Filled) {e f : Endpoint}
    (hf : f ∈ p.selected) (hne : f ≠ e) (score : Float) : f ∈ (p.judge e score).1.selected := by
  rcases h.judge_cases e score with hjudge | ⟨-, hjudge⟩ | ⟨-, g, -, hjudge⟩
  · rw [hjudge]
    exact hf
  · rw [hjudge]
    exact hf
  · rw [hjudge]
    exact List.mem_append_left [g] ((List.mem_erase_of_ne hne).mpr hf)

/-! ## Reports that change nothing -/

/-- The reports that a pool takes without a change: a good one of an endpoint that is not marked, a
failure of an endpoint that is not selected, and a failure of a marked endpoint that was selected
last and is first in the queue for its own place. -/
def Indifferent (p : BoundedPool) (e : Endpoint) (score : Float) : Prop :=
  if 0.0 < score then e ∉ p.unhealthy
  else e ∈ p.selected →
    e ∈ p.unhealthy ∧ p.selected.getLast? = some e ∧
      (p.queue (p.selected.erase e)).head? = some e

instance (p : BoundedPool) (e : Endpoint) (score : Float) : Decidable (p.Indifferent e score) :=
  inferInstanceAs (Decidable (if 0.0 < score then e ∉ p.unhealthy else e ∈ p.selected → _))

/-- To clear a mark changes a pool only if the endpoint has one. -/
theorem clear_eq_self_iff {p : BoundedPool} {e : Endpoint} : p.clear e = p ↔ e ∉ p.unhealthy := by
  constructor
  · intro h he
    rw [← h] at he
    simp [clear] at he
  · intro he
    have hall : p.unhealthy.filter (· != e) = p.unhealthy := by
      refine List.filter_eq_self.mpr fun f hf => ?_
      have hne : f ≠ e := fun hfe => he (hfe ▸ hf)
      simpa using hne
    rw [clear, hall]

/-- A failure of a selected endpoint leaves a filled pool as it is only if the endpoint gets its
place back at once. -/
theorem replace_eq_self_iff {p : BoundedPool} (h : p.Filled) {e : Endpoint}
    (he : e ∈ p.selected) :
    (p.mark e).fill (p.selected.erase e) = p ↔
      e ∈ p.unhealthy ∧ p.selected.getLast? = some e ∧
        (p.queue (p.selected.erase e)).head? = some e := by
  have hmark : e ∈ p.unhealthy → p.mark e = p := fun hknown => if_pos (by simpa using hknown)
  obtain ⟨f, hf, hfill⟩ := h.exists_successor he
  rw [hfill]
  constructor
  · intro hsame
    have hknown : e ∈ p.unhealthy := by
      rw [← hsame]
      exact mem_unhealthy_swap.mpr (Or.inl rfl)
    have hselected : p.selected.erase e ++ [f] = p.selected := congrArg selected hsame
    obtain rfl : e = f := by
      rw [← hselected] at he
      have hlast := (List.mem_append.mp he).resolve_left h.once.not_mem_erase
      exact List.mem_singleton.mp hlast
    rw [successor, hmark hknown] at hf
    refine ⟨hknown, ?_, hf⟩
    rw [← hselected]
    exact List.getLast?_concat
  · rintro ⟨hknown, hlast, hhead⟩
    rw [successor, hmark hknown, hhead] at hf
    obtain rfl := Option.some.inj hf
    obtain ⟨kept, hselected⟩ := List.getLast?_eq_some_iff.mp hlast
    have herase : p.selected.erase e = kept := by
      have hout : e ∉ kept := by
        have honce := h.once
        rw [hselected] at honce
        intro hin
        exact (List.nodup_append.mp honce).2.2 e hin e (by simp) rfl
      rw [hselected, List.erase_append_right _ hout]
      simp
    rw [swap, hmark hknown, herase, ← hselected]

/-- The reports that leave a filled pool as it is. -/
theorem judge_eq_self_iff {p : BoundedPool} (h : p.Filled) {e : Endpoint} {score : Float} :
    (p.judge e score).1 = p ↔ p.Indifferent e score := by
  unfold judge Indifferent
  split
  · exact clear_eq_self_iff
  · split
    · rename_i he
      have he : e ∈ p.selected := by simpa using he
      rw [replace_eq_self_iff h he]
      exact ⟨fun hkept _ => hkept, fun hkept => hkept he⟩
    · rename_i hout
      have hout : e ∉ p.selected := by simpa using hout
      exact ⟨fun _ he => absurd he hout, fun _ => rfl⟩

end HealthWatch.BoundedPool
