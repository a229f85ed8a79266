import HealthWatch.Proofs.Strategy.Laws
import Mathlib.Data.Finset.Card
import Mathlib.Data.List.Basic

/-!
# The places of a bounded pool

Whatever a pool was offered and has heard, it is filled (`filled_of_heard`). So it selects as many
candidates as it has places for, or all of them, and the same offer once more changes nothing:
`selection_takes_its_places`.

An offer with fewer places trims the selection at its end, where those stand that came in last. The
marks of the endpoints do not count in that, so what is dropped may be unmarked although a marked
endpoint stays: `trimming_spares_unmarked_iff` says when this does not happen.
-/

set_option autoImplicit false

namespace HealthWatch.BoundedPool

/-- A pool is filled after all that it may hear. -/
theorem filled_of_heard {quota : Quota} {candidates : List Endpoint} {p : BoundedPool}
    (h : Strategy.Heard ({ quota := quota } : BoundedPool) candidates p) :
    p.Filled ∧ p.candidates = candidates ∧ p.quota = quota := by
  induction h with
  | first => exact ⟨filled_unused quota, rfl, rfl⟩
  | offer _ candidates ih => exact ⟨ih.1.offer candidates, rfl, ih.2.2⟩
  | @judge candidates p _ e score ih =>
    exact ⟨ih.1.judge e score, (candidates_judge p e score).1.trans ih.2.1,
      (quota_judge p e score).trans ih.2.2⟩

/-! ## How many are selected -/

/-- A filled pool selects as many as it has places for, or all candidates, each counted once. -/
theorem Filled.length_selected {p : BoundedPool} (h : p.Filled) :
    p.selected.length = min p.places p.candidates.toFinset.card := by
  have hcard : p.selected.toFinset.card = p.selected.length := List.toFinset_card_of_nodup h.once
  have hwithin : p.selected.toFinset ⊆ p.candidates.toFinset := by
    intro e he
    exact List.mem_toFinset.mpr (h.offered e (List.mem_toFinset.mp he))
  have hfits := h.fits
  by_cases hall : p.candidates.toFinset ⊆ p.selected.toFinset
  · have hsame := Finset.Subset.antisymm hwithin hall
    rw [← hsame, hcard]
    omega
  · obtain ⟨e, he, hout⟩ := Finset.not_subset.mp hall
    have hfull := h.full e (List.mem_toFinset.mp he) (mt List.mem_toFinset.mpr hout)
    have hcount := Finset.card_le_card hwithin
    omega

/-- A filled pool has no place left over, or nobody to give it to. -/
theorem Filled.take_queue {p : BoundedPool} (h : p.Filled) :
    (p.queue p.selected).take (p.places - p.selected.length) = [] := by
  by_cases hfull : p.selected.length = p.places
  · rw [hfull, Nat.sub_self, List.take_zero]
  · have hnone : p.queue p.selected = [] := by
      refine List.eq_nil_iff_forall_not_mem.mpr fun e he => ?_
      obtain ⟨hcandidate, hout⟩ := mem_queue.mp he
      exact hfull (h.full e hcandidate hout)
    rw [hnone, List.take_nil]

/-- A filled pool does not change when it is offered the candidates that it has. -/
theorem Filled.offer_candidates {p : BoundedPool} (h : p.Filled) : p.offer p.candidates = p := by
  have hunhealthy : p.unhealthy.filter p.candidates.contains = p.unhealthy :=
    List.filter_eq_self.mpr fun e he => by simpa using h.known e he
  have hselected : p.selected.filter p.candidates.contains = p.selected :=
    List.filter_eq_self.mpr fun e he => by simpa using h.offered e he
  have hkept : p.selected.take p.places = p.selected := List.take_of_length_le h.fits
  have hfill : p.fill p.selected = p := by
    rw [fill, hkept, h.take_queue, List.append_nil]
  rw [BoundedPool.offer, hunhealthy, hselected]
  exact hfill

/-- After all offers and reports, the selection holds candidates only, each once, and as many as the
quota allows and there are; only candidates are marked; and the same offer changes nothing. -/
theorem selection_takes_its_places (quota : Quota) {candidates : List Endpoint} {p : BoundedPool}
    (h : Strategy.Heard ({ quota := quota } : BoundedPool) candidates p) :
    p.selected.Nodup ∧ (∀ e ∈ p.selected, e ∈ candidates) ∧
      p.selected.length = min (quota.maxFor candidates.length) candidates.toFinset.card ∧
      (∀ e ∈ p.unhealthy, e ∈ candidates) ∧ p.offer candidates = p := by
  obtain ⟨hfilled, rfl, rfl⟩ := filled_of_heard h
  exact ⟨hfilled.once, hfilled.offered, hfilled.length_selected, hfilled.known,
    hfilled.offer_candidates⟩

/-- Of three places that the quota allows for three candidates, two of them the same endpoint, two
are taken, after a failure too. -/
theorem two_endpoints_take_two_of_three_places :
    let a : Endpoint := { host := "a" }
    let b : Endpoint := { host := "b" }
    ∃ p, Strategy.Heard ({ quota := .count 3 } : BoundedPool) [a, b, a] p ∧
      p.selected = [b, a] ∧ p.unhealthy = [a] ∧
      p.selected.length = min ((Quota.count 3).maxFor 3) [a, b, a].toFinset.card ∧
      p.offer [a, b, a] = p := by
  intro a b
  have h : Strategy.Heard ({ quota := .count 3 } : BoundedPool) [a, b, a] _ :=
    (Strategy.Heard.first.offer [a, b, a]).judge a 0.0
  obtain ⟨-, -, hlength, -, hsame⟩ := selection_takes_its_places (.count 3) h
  exact ⟨_, h, by decide, by decide, hlength, hsame⟩

/-! ## Who is dropped when places go -/

/-- The selected endpoints that are candidates still, in the order of the selection. -/
def remaining (p : BoundedPool) (candidates : List Endpoint) : List Endpoint :=
  p.selected.filter candidates.contains

/-- Of the selected endpoints each remains once. -/
theorem Filled.nodup_remaining {p : BoundedPool} (h : p.Filled) (candidates : List Endpoint) :
    (p.remaining candidates).Nodup :=
  h.once.filter _

/-- Of the selected endpoints that are candidates still, those stay that stand first. -/
theorem mem_selected_offer {p : BoundedPool} {candidates : List Endpoint} {e : Endpoint}
    (he : e ∈ p.remaining candidates) :
    e ∈ (p.offer candidates).selected ↔
      e ∈ (p.remaining candidates).take (p.quota.maxFor candidates.length) := by
  obtain ⟨q, hselected⟩ : ∃ q : BoundedPool, (p.offer candidates).selected =
      (p.remaining candidates).take (p.quota.maxFor candidates.length) ++
        (q.queue ((p.remaining candidates).take (p.quota.maxFor candidates.length))).take
          (p.quota.maxFor candidates.length -
            ((p.remaining candidates).take (p.quota.maxFor candidates.length)).length) :=
    ⟨_, rfl⟩
  rw [hselected]
  by_cases hroom : (p.remaining candidates).length ≤ p.quota.maxFor candidates.length
  · rw [List.take_of_length_le hroom]
    exact ⟨fun _ => he, fun _ => List.mem_append_left _ he⟩
  · -- every place is taken by those that stay, so none comes back by the queue
    have hfull : ((p.remaining candidates).take (p.quota.maxFor candidates.length)).length =
        p.quota.maxFor candidates.length := List.length_take_of_le (by omega)
    rw [hfull, Nat.sub_self, List.take_zero, List.append_nil]

/-- Of the selected endpoints that are candidates still, those are dropped that stand behind the
last place. -/
theorem Filled.not_mem_selected_offer {p : BoundedPool} (h : p.Filled)
    {candidates : List Endpoint} {e : Endpoint} (he : e ∈ p.remaining candidates) :
    e ∉ (p.offer candidates).selected ↔
      e ∈ (p.remaining candidates).drop (p.quota.maxFor candidates.length) := by
  have honce := h.nodup_remaining candidates
  rw [mem_selected_offer he]
  rw [← List.take_append_drop (p.quota.maxFor candidates.length) (p.remaining candidates)]
    at he honce
  constructor
  · intro hout
    exact (List.mem_append.mp he).resolve_left hout
  · intro hdropped hkept
    exact (List.nodup_append.mp honce).2.2 e hkept e hdropped rfl

/-- Under a fixed number of places nobody is dropped who is a candidate still. -/
theorem Filled.drop_remaining_of_count {p : BoundedPool} (h : p.Filled) {limit : Nat}
    (hquota : p.quota = .count limit) (candidates : List Endpoint) :
    (p.remaining candidates).drop (p.quota.maxFor candidates.length) = [] := by
  have hfits : p.selected.length ≤ limit := by
    have hplaces := h.fits
    rw [places, hquota] at hplaces
    exact Nat.le_trans hplaces (Nat.min_le_left _ _)
  have hkept : (p.remaining candidates).length ≤ p.selected.length := List.length_filter_le _ _
  have hoffered : (p.remaining candidates).length ≤ candidates.length := by
    refine ((h.nodup_remaining candidates).subperm ?_).length_le
    intro e he
    simpa using (List.mem_filter.mp he).2
  refine List.drop_eq_nil_of_le ?_
  rw [hquota]
  exact Nat.le_min.mpr ⟨by omega, hoffered⟩

/-- An offer never drops an unmarked endpoint and keeps a marked one exactly if no marked endpoint
is among the first in the selection, as far as there are places for them, or all others are marked.
Under a fixed number of places nobody has to be dropped. -/
theorem trimming_spares_unmarked_iff (quota : Quota) {old : List Endpoint} {p : BoundedPool}
    (h : Strategy.Heard ({ quota := quota } : BoundedPool) old p) (candidates : List Endpoint) :
    ((∀ e ∈ p.remaining candidates, ∀ f ∈ p.remaining candidates,
        e ∈ (p.offer candidates).selected → f ∉ (p.offer candidates).selected →
          e ∈ p.unhealthy → f ∈ p.unhealthy) ↔
      (∀ e ∈ (p.remaining candidates).take (quota.maxFor candidates.length), e ∉ p.unhealthy) ∨
        ∀ f ∈ (p.remaining candidates).drop (quota.maxFor candidates.length),
          f ∈ p.unhealthy) ∧
    ∀ limit, quota = .count limit →
      (p.remaining candidates).drop (quota.maxFor candidates.length) = [] := by
  obtain ⟨hfilled, rfl, rfl⟩ := filled_of_heard h
  refine ⟨⟨fun hspares => ?_, fun hcut e he f hf hkept hdropped hmarked => ?_⟩,
    fun limit hquota => hfilled.drop_remaining_of_count hquota candidates⟩
  · by_contra hneither
    push Not at hneither
    obtain ⟨⟨e, hkept, hmarked⟩, f, hdropped, hunmarked⟩ := hneither
    have he := List.mem_of_mem_take hkept
    have hf := List.mem_of_mem_drop hdropped
    exact hunmarked (hspares e he f hf ((mem_selected_offer he).mpr hkept)
      ((hfilled.not_mem_selected_offer hf).mpr hdropped) hmarked)
  · have hkept := (mem_selected_offer he).mp hkept
    have hdropped := (hfilled.not_mem_selected_offer hf).mp hdropped
    rcases hcut with hnone | hall
    · exact absurd hmarked (hnone e hkept)
    · exact hall f hdropped

/-- Three of four endpoints have failed, and the first of these is selected again behind the fourth.
When one of the two places goes, the fourth stays. -/
theorem trimming_drops_the_one_selected_again :
    let a : Endpoint := { host := "a" }
    let b : Endpoint := { host := "b" }
    let c : Endpoint := { host := "c" }
    let d : Endpoint := { host := "d" }
    ∃ p, Strategy.Heard ({ quota := .ratio 0.5 } : BoundedPool) [a, b, c, d] p ∧
      p.remaining [a, d] = [d, a] ∧ (p.offer [a, d]).selected = [d] ∧
      ∀ e ∈ p.remaining [a, d], ∀ f ∈ p.remaining [a, d],
        e ∈ (p.offer [a, d]).selected → f ∉ (p.offer [a, d]).selected →
          e ∈ p.unhealthy → f ∈ p.unhealthy := by
  intro a b c d
  have h : Strategy.Heard ({ quota := .ratio 0.5 } : BoundedPool) [a, b, c, d] _ :=
    (((Strategy.Heard.first.offer [a, b, c, d]).judge a 0.0).judge b 0.0).judge c 0.0
  refine ⟨_, h, by decide +kernel, by decide +kernel, ?_⟩
  exact (trimming_spares_unmarked_iff (.ratio 0.5) h [a, d]).1.mpr (Or.inl (by decide +kernel))

/-- An endpoint that failed while it was the only candidate stays selected and marked. Another one
that comes in later is dropped first, although it is not marked. -/
theorem trimming_drops_an_unmarked_one :
    let a : Endpoint := { host := "a" }
    let b : Endpoint := { host := "b" }
    let c : Endpoint := { host := "c" }
    ∃ p, Strategy.Heard ({ quota := .ratio 0.5 } : BoundedPool) [a, b, c] p ∧
      p.remaining [a, b] = [a, b] ∧ (p.offer [a, b]).selected = [a] ∧
      a ∈ p.unhealthy ∧ b ∉ p.unhealthy := by
  intro a b c
  have h : Strategy.Heard ({ quota := .ratio 0.5 } : BoundedPool) [a, b, c] _ :=
    ((Strategy.Heard.first.offer [a]).judge a 0.0).offer [a, b, c]
  exact ⟨_, h, by decide +kernel, by decide +kernel, by decide +kernel, by decide +kernel⟩

end HealthWatch.BoundedPool
