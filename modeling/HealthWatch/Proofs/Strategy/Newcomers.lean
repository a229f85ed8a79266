import HealthWatch.Proofs.Strategy.Places

/-!
# Who comes in

An offer, or a failure of a selected endpoint, leaves some of the selected endpoints where they are.
The places left over go to the other candidates in the order of `lineUp`: those that are not marked
before those that are, and among each of these the one that comes first among the candidates first.

The pool itself makes its queue in one pass over the candidates, in which an endpoint that is
offered twice must not join twice. That the pass yields just this order is `queue_eq_lineUp`. From
the order follows that a marked endpoint comes in only when no unmarked one is left outside:
`newcomers_stand_first_in_line`.
-/

set_option autoImplicit false

namespace HealthWatch.BoundedPool

/-! ## The order of the line -/

/-- The order in which candidates come in beside those that are kept: each candidate once, where it
comes first, and the unhealthy ones behind the others. -/
def lineUp (candidates kept unhealthy : List Endpoint) : List Endpoint :=
  let waiting := candidates.eraseDups.filter fun e => e ∉ kept
  (waiting.filter fun e => e ∉ unhealthy) ++ waiting.filter fun e => e ∈ unhealthy

/-- A further candidate counts unless it was there already. -/
theorem eraseDups_concat (candidates : List Endpoint) (e : Endpoint) :
    (candidates ++ [e]).eraseDups =
      if e ∈ candidates then candidates.eraseDups else candidates.eraseDups ++ [e] := by
  rw [List.eraseDups_append, List.cons_removeAll]
  by_cases h : e ∈ candidates
  · simp [h]
  · simp [h, List.eraseDups_cons]

/-- The candidates outside are the distinct ones that are not kept. -/
theorem outside_eq (candidates kept : List Endpoint) :
    outside candidates kept = candidates.eraseDups.filter fun e => e ∉ kept := by
  induction candidates using List.reverseRecOn with
  | nil => simp [outside]
  | append_singleton seen e ih =>
    rw [outside_concat, eraseDups_concat, ih]
    by_cases hseen : e ∈ seen
    · simp [hseen]
    · by_cases hkept : e ∈ kept <;> simp [hseen, hkept]

/-- The pass over the candidates brings them in just the order of the line. -/
theorem queue_eq_lineUp (p : BoundedPool) (kept : List Endpoint) :
    p.queue kept = lineUp p.candidates kept p.unhealthy := by
  rw [queue_eq, outside_eq, lineUp]
  congr 1 <;> apply List.filter_congr <;> simp

/-- If what is taken off the front of two lists reaches into the second one, all of the first one is
taken. -/
theorem mem_take_append_of_reached {front back : List Endpoint} {n : Nat} {e f : Endpoint}
    (he : e ∈ (front ++ back).take n) (hback : e ∉ front) (hf : f ∈ front) :
    f ∈ (front ++ back).take n := by
  rw [List.take_append, List.mem_append] at he ⊢
  have hreached : e ∈ back.take (n - front.length) :=
    he.resolve_left fun hin => hback (List.mem_of_mem_take hin)
  have hall : front.length ≤ n := by
    by_contra hshort
    have hnone : n - front.length = 0 := by omega
    simp [hnone] at hreached
  left
  rwa [List.take_of_length_le hall]

/-- When an unhealthy endpoint is taken out of the line, so is every one that is not unhealthy. -/
theorem mem_take_lineUp {candidates kept unhealthy : List Endpoint} {n : Nat} {e f : Endpoint}
    (he : e ∈ (lineUp candidates kept unhealthy).take n) (hmarked : e ∈ unhealthy)
    (hf : f ∈ candidates) (hout : f ∉ kept) (hfree : f ∉ unhealthy) :
    f ∈ (lineUp candidates kept unhealthy).take n := by
  apply mem_take_append_of_reached he
  · simp [hmarked]
  · simp [hf, hout, hfree]

/-! ## Filling from the line -/

/-- A pool keeps what it has places for and fills the other places from the front of the line. -/
theorem selected_fill (p : BoundedPool) (kept : List Endpoint) :
    (p.fill kept).selected = kept.take p.places ++
      (lineUp p.candidates (kept.take p.places) p.unhealthy).take
        (p.places - (kept.take p.places).length) := by
  rw [fill, queue_eq_lineUp]

/-- A failure of a selected endpoint keeps all others, for which there are places. -/
theorem Filled.selected_judge {p : BoundedPool} (h : p.Filled) {e : Endpoint} (he : e ∈ p.selected)
    {score : Float} (hfail : ¬0.0 < score) :
    (p.judge e score).1.selected = p.selected.erase e ++
      (lineUp p.candidates (p.selected.erase e) (p.judge e score).1.unhealthy).take
        (p.places - (p.selected.erase e).length) := by
  have hjudge : (p.judge e score).1 = (p.mark e).fill (p.selected.erase e) := by
    rw [BoundedPool.judge, if_neg hfail, if_pos (by simpa using he)]
  have hfits : (p.selected.erase e).length ≤ p.places := by
    have hless := List.length_erase_le (a := e) (l := p.selected)
    have hplaces := h.fits
    omega
  rw [hjudge, selected_fill, (candidates_mark p e).1, places_mark, List.take_of_length_le hfits]
  rfl

/-- Reports that are good, or of endpoints that are not selected, leave the selection as it is. -/
theorem selected_judge_of_unheard {p : BoundedPool} {e : Endpoint} {score : Float}
    (h : e ∉ p.selected ∨ 0.0 < score) : (p.judge e score).1.selected = p.selected := by
  unfold judge
  by_cases hgood : 0.0 < score
  · simp [hgood, clear]
  · have hout : e ∉ p.selected := h.resolve_right hgood
    simp [hgood, hout]

/-- An endpoint that comes in although it is marked leaves no unmarked one outside. -/
theorem mem_selected_of_newcomer {candidates kept unhealthy selected : List Endpoint} {n : Nat}
    (hselected : selected = kept ++ (lineUp candidates kept unhealthy).take n) {e f : Endpoint}
    (he : e ∈ selected) (hnew : e ∉ kept) (hmarked : e ∈ unhealthy) (hf : f ∈ candidates)
    (hfree : f ∉ unhealthy) : f ∈ selected := by
  rw [hselected, List.mem_append] at he ⊢
  by_cases hout : f ∈ kept
  · exact Or.inl hout
  · exact Or.inr (mem_take_lineUp (he.resolve_left hnew) hmarked hf hout hfree)

/-! ## Main statement -/

/-- Behind the endpoints that keep their places stand, as far as there are places, the other
candidates: each once and in their order, those that are not marked first. So a marked one comes in
only when all unmarked candidates are selected. An offer keeps the selected endpoints that are
candidates still, as far as there are places; a failure of a selected endpoint keeps the others; no
other report changes the selection. -/
theorem newcomers_stand_first_in_line (quota : Quota) {candidates : List Endpoint}
    {p : BoundedPool} (h : Strategy.Heard ({ quota := quota } : BoundedPool) candidates p) :
    (∀ offered : List Endpoint,
      let q := p.offer offered
      let places := quota.maxFor offered.length
      let kept := (p.remaining offered).take places
      q.selected = kept ++ (lineUp offered kept q.unhealthy).take (places - kept.length) ∧
        ∀ e ∈ q.selected, e ∉ kept → e ∈ q.unhealthy →
          ∀ f ∈ offered, f ∉ q.unhealthy → f ∈ q.selected) ∧
    ∀ (e : Endpoint) (score : Float),
      let q := (p.judge e score).1
      let places := quota.maxFor candidates.length
      let kept := p.selected.erase e
      (e ∈ p.selected → ¬0.0 < score →
        q.selected = kept ++ (lineUp candidates kept q.unhealthy).take (places - kept.length) ∧
          ∀ g ∈ q.selected, g ∉ kept → g ∈ q.unhealthy →
            ∀ f ∈ candidates, f ∉ q.unhealthy → f ∈ q.selected) ∧
      (e ∉ p.selected ∨ 0.0 < score → q.selected = p.selected) := by
  obtain ⟨hfilled, rfl, rfl⟩ := filled_of_heard h
  constructor
  · intro offered q places kept
    have hselected : q.selected =
        kept ++ (lineUp offered kept q.unhealthy).take (places - kept.length) :=
      selected_fill _ _
    exact ⟨hselected, fun e he hnew hmarked f hf hfree =>
      mem_selected_of_newcomer hselected he hnew hmarked hf hfree⟩
  · intro e score q places kept
    constructor
    · intro he hfail
      have hselected : q.selected =
          kept ++ (lineUp p.candidates kept q.unhealthy).take (places - kept.length) :=
        hfilled.selected_judge he hfail
      exact ⟨hselected, fun g hg hnew hmarked f hf hfree =>
        mem_selected_of_newcomer hselected hg hnew hmarked hf hfree⟩
    · exact selected_judge_of_unheard

/-- Two endpoints failed and gave their places to two others. When these are no candidates any more,
the new candidate comes in first, and then the one of the marked ones that is offered first. When
instead another one fails, the first of the three marked ones comes in. -/
theorem unmarked_comes_in_before_marked :
    let a : Endpoint := { host := "a" }
    let b : Endpoint := { host := "b" }
    let c : Endpoint := { host := "c" }
    let d : Endpoint := { host := "d" }
    let e : Endpoint := { host := "e" }
    ∃ p, Strategy.Heard ({ quota := .count 2 } : BoundedPool) [a, b, c, d] p ∧
      p.selected = [c, d] ∧ p.unhealthy = [a, b] ∧
      (p.offer [b, a, e, b]).selected = [e, b] ∧
      (∀ f ∈ [b, a, e, b], f ∉ (p.offer [b, a, e, b]).unhealthy →
        f ∈ (p.offer [b, a, e, b]).selected) ∧
      (p.judge c 0.0).1.selected = [d, a] ∧
      (p.judge c 0.0).1.selected = p.selected.erase c ++
        (lineUp [a, b, c, d] (p.selected.erase c) (p.judge c 0.0).1.unhealthy).take
          ((Quota.count 2).maxFor 4 - (p.selected.erase c).length) := by
  intro a b c d e
  have h : Strategy.Heard ({ quota := .count 2 } : BoundedPool) [a, b, c, d] _ :=
    ((Strategy.Heard.first.offer [a, b, c, d]).judge a 0.0).judge b 0.0
  obtain ⟨hoffer, hjudge⟩ := newcomers_stand_first_in_line (.count 2) h
  have hnewcomer := (hoffer [b, a, e, b]).2 b
  have hfailure := (hjudge c 0.0).1 (by decide +kernel) (by decide +kernel)
  exact ⟨_, h, by decide +kernel, by decide +kernel, by decide +kernel,
    hnewcomer (by decide +kernel) (by decide +kernel) (by decide +kernel), by decide +kernel,
    hfailure.1⟩

end HealthWatch.BoundedPool
