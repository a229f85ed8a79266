import HealthWatch.Proofs.Strategy.Newcomers

/-!
# One for another

To a failure of a selected endpoint a pool answers by taking the endpoint out and filling the
selection as it does after any change, by trimming it and topping it up from the queue. In a pool
that was not filled this could let in several endpoints, or drop some. A pool is filled after
all it may hear (`filled_of_heard`), so there is one place for one endpoint: either the failing one
comes back, or it is exchanged for one other, and the rest keep their order (`Exchange`).

The pool says that the selection changed exactly if there was an exchange:
`report_moves_one_endpoint_at_most`.
-/

set_option autoImplicit false

namespace HealthWatch.BoundedPool

/-- Of two selections, the second has one endpoint less and another one more, and those in both
stand in the same order in both. -/
structure Exchange (before after : List Endpoint) (gone come : Endpoint) : Prop where
  leaves : ∀ e, e ∈ before ∧ e ∉ after ↔ e = gone
  enters : ∀ e, e ∈ after ∧ e ∉ before ↔ e = come
  order : after.filter before.contains = before.filter after.contains

/-- A swap with an endpoint from outside is an exchange. -/
theorem Filled.exchange_swap {p : BoundedPool} (h : p.Filled) {e f : Endpoint}
    (he : e ∈ p.selected) (hf : f ∉ p.selected) :
    Exchange p.selected (p.swap e f).selected e f := by
  have hafter (g : Endpoint) : g ∈ (p.swap e f).selected ↔ (g ≠ e ∧ g ∈ p.selected) ∨ g = f := by
    simp [swap, h.once.mem_erase_iff]
  have hne : f ≠ e := by
    rintro rfl
    exact hf he
  constructor
  case leaves =>
    intro g
    rw [hafter]
    grind
  case enters =>
    intro g
    rw [hafter]
    grind
  case order =>
    -- both come to the selection without the endpoint that leaves
    have hkept : (p.swap e f).selected.filter p.selected.contains = p.selected.erase e := by
      have hall : (p.selected.erase e).filter p.selected.contains = p.selected.erase e := by
        refine List.filter_eq_self.mpr fun g hg => ?_
        simpa using List.mem_of_mem_erase hg
      simp [swap, hall, hf]
    rw [hkept, h.once.erase_eq_filter]
    refine List.filter_congr fun g hg => ?_
    have hgf : g ≠ f := fun heq => hf (heq ▸ hg)
    rw [Bool.eq_iff_iff, List.contains_iff_mem, hafter]
    simp [hg, hgf]

/-- A report that asks for a pass is a failure of a selected endpoint, which it exchanges for its
successor. -/
theorem Filled.exchange_of_moved {p : BoundedPool} (h : p.Filled) {e : Endpoint} {score : Float}
    (hmoved : (p.judge e score).2 = true) :
    e ∈ p.selected ∧ ¬0.0 < score ∧ ∃ f ∈ p.candidates,
      Exchange p.selected (p.judge e score).1.selected e f := by
  have hfail : ¬0.0 < score := by
    intro hgood
    simp [BoundedPool.judge, hgood] at hmoved
  have he : e ∈ p.selected := by
    by_contra hout
    simp [BoundedPool.judge, hfail, hout] at hmoved
  obtain ⟨f, hf, hjudge⟩ := h.judge_failure he hfail
  rw [hjudge] at hmoved
  have hne : f ≠ e := of_decide_eq_true hmoved
  obtain ⟨hcandidate, hout⟩ := mem_of_successor hf
  have hnew : f ∉ p.selected := mt (List.mem_erase_of_ne hne).mpr hout
  refine ⟨he, hfail, f, hcandidate, ?_⟩
  rw [hjudge]
  exact h.exchange_swap he hnew

/-! ## Main statement -/

/-- A report asks for a pass exactly if it changes which endpoints are selected. It does so only if
a selected endpoint failed, and then that endpoint leaves, one other candidate comes in, and all
others stay in their order. A good report leaves the selection as it is, and a failure of an
endpoint that is not selected leaves everything as it is. -/
theorem report_moves_one_endpoint_at_most (quota : Quota) {candidates : List Endpoint}
    {p : BoundedPool} (h : Strategy.Heard ({ quota := quota } : BoundedPool) candidates p)
    (e : Endpoint) (score : Float) :
    ((p.judge e score).2 = true ↔ ¬∀ f, f ∈ (p.judge e score).1.selected ↔ f ∈ p.selected) ∧
    ((p.judge e score).2 = true → e ∈ p.selected ∧ ¬0.0 < score ∧
      ∃ f ∈ candidates, Exchange p.selected (p.judge e score).1.selected e f) ∧
    (0.0 < score → (p.judge e score).1.selected = p.selected) ∧
    (¬0.0 < score → e ∉ p.selected → (p.judge e score).1 = p) := by
  obtain ⟨hfilled, rfl, -⟩ := filled_of_heard h
  refine ⟨?_, hfilled.exchange_of_moved, fun hgood => selected_judge_of_unheard (Or.inr hgood), ?_⟩
  · have hsame : sameEndpoints p.selected (p.judge e score).1.selected = true ↔
        ∀ f, f ∈ (p.judge e score).1.selected ↔ f ∈ p.selected :=
      sameEndpoints_iff.trans (forall_congr' fun _ => Iff.comm)
    rw [moved_judge, Bool.not_eq_true', ← hsame, Bool.not_eq_true]
  · intro hfail hout
    simp [BoundedPool.judge, hfail, hout]

/-- The first of two selected endpoints has failed, and the third one came in behind the second.
When the second one reports what is no number, it is exchanged for the fourth. -/
theorem no_number_is_a_failure :
    let a : Endpoint := { host := "a" }
    let b : Endpoint := { host := "b" }
    let c : Endpoint := { host := "c" }
    let d : Endpoint := { host := "d" }
    ∃ p, Strategy.Heard ({ quota := .count 2 } : BoundedPool) [a, b, c, d] p ∧
      p.selected = [b, c] ∧ (p.judge b (0.0 / 0.0)).2 = true ∧
      Exchange p.selected (p.judge b (0.0 / 0.0)).1.selected b d ∧
      (p.judge a (0.0 / 0.0)).1 = p := by
  intro a b c d
  have h : Strategy.Heard ({ quota := .count 2 } : BoundedPool) [a, b, c, d] _ :=
    (Strategy.Heard.first.offer [a, b, c, d]).judge a 0.0
  obtain ⟨-, hexchange, -, -⟩ := report_moves_one_endpoint_at_most (.count 2) h b (0.0 / 0.0)
  obtain ⟨-, -, -, hunmoved⟩ := report_moves_one_endpoint_at_most (.count 2) h a (0.0 / 0.0)
  obtain ⟨-, -, f, -, hf⟩ := hexchange (by decide +kernel)
  obtain rfl : d = f := (hf.enters d).mp (by decide +kernel)
  exact ⟨_, h, by decide +kernel, by decide +kernel, hf, hunmoved (by decide +kernel)
    (by decide +kernel)⟩

end HealthWatch.BoundedPool
