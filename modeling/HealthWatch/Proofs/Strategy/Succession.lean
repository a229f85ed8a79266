import HealthWatch.Proofs.Strategy.Places
import Mathlib.Algebra.Order.BigOperators.Group.List
import Mathlib.Algebra.Order.Ring.Nat

/-!
# Who comes in for a failing endpoint

When a selected endpoint fails it is marked and queues for its own place, behind the unmarked
candidates outside and among the marked ones, where the order of the candidates decides. So it gives
way exactly to an unmarked candidate outside, or to one that stands before it:
`failing_endpoint_gives_way_iff`. Once everything is marked, failures thus move the selection
towards the first candidates, and there it stays.

For the same reason reports of selected endpoints move a selection only so often. Each move takes
one of the unmarked candidates outside, or there is none and the places of the selected endpoints
among the candidates add up to less: `slack` counts the moves that are left (`slack_judge`).
-/

set_option autoImplicit false

namespace HealthWatch.BoundedPool

/-! ## Spare candidates -/

/-- The candidates outside the selection that are not marked. -/
def spare (p : BoundedPool) : List Endpoint :=
  (outside p.candidates p.selected).filter fun e => !p.unhealthy.contains e

/-- A candidate is spare if it is neither selected nor marked. -/
theorem mem_spare {p : BoundedPool} {e : Endpoint} :
    e ∈ p.spare ↔ e ∈ p.candidates ∧ e ∉ p.selected ∧ e ∉ p.unhealthy := by
  rw [spare, List.mem_filter, mem_outside]
  simp [and_assoc]

/-- No candidate is spare twice. -/
theorem nodup_spare (p : BoundedPool) : p.spare.Nodup :=
  (nodup_outside _ _).filter _

/-- Nobody is spare just if all candidates outside are marked. -/
theorem spare_eq_nil_iff {p : BoundedPool} :
    p.spare = [] ↔ ∀ e ∈ p.candidates, e ∉ p.selected → e ∈ p.unhealthy := by
  rw [List.eq_nil_iff_forall_not_mem]
  simp only [mem_spare, not_and, not_not]

/-! ## The successor -/

/-- The first candidate outside a selection stands before all others outside it. -/
theorem idxOf_le_of_head?_outside {candidates kept : List Endpoint} {f : Endpoint}
    (hf : (outside candidates kept).head? = some f) :
    ∀ g ∈ candidates, g ∉ kept → candidates.idxOf f ≤ candidates.idxOf g := by
  induction candidates with
  | nil => simp
  | cons c rest ih =>
    rw [outside] at hf
    intro g hg hout
    split at hf
    · rename_i hc
      have hc : c ∈ kept := by simpa using hc
      have hfree : f ∉ kept := (mem_outside.mp (List.mem_of_mem_head? hf)).2
      have hgc : c ≠ g := fun heq => hout (heq ▸ hc)
      have hfc : c ≠ f := fun heq => hfree (heq ▸ hc)
      rw [List.idxOf_cons_ne rest hfc, List.idxOf_cons_ne rest hgc]
      have hin : g ∈ rest := (List.mem_cons.mp hg).resolve_left hgc.symm
      exact Nat.succ_le_succ (ih hf g hin hout)
    · obtain rfl : c = f := by simpa using hf
      rw [List.idxOf_cons_self]
      exact Nat.zero_le _

/-- Of two different candidates, the one that stands no later stands before the other. -/
theorem idxOf_lt_of_ne {candidates : List Endpoint} {f e : Endpoint} (hf : f ∈ candidates)
    (hle : candidates.idxOf f ≤ candidates.idxOf e) (hne : f ≠ e) :
    candidates.idxOf f < candidates.idxOf e :=
  Nat.lt_of_le_of_ne hle fun hsame => hne ((List.idxOf_inj hf).mp hsame)

/-- The successor of a selected endpoint is a spare candidate, or there is none and it is the first
of all candidates outside, the endpoint itself included. -/
theorem successor_cases {p : BoundedPool} {e f : Endpoint} (he : e ∈ p.selected)
    (hf : p.successor e = some f) :
    f ∈ p.spare ∨ (p.spare = [] ∧ ∀ g ∈ p.candidates, g ∉ p.selected.erase e →
      p.candidates.idxOf f ≤ p.candidates.idxOf g) := by
  obtain ⟨hcandidate, hout⟩ := mem_of_successor hf
  rw [successor, queue_eq, (candidates_mark p e).1] at hf
  generalize hwaiting : outside p.candidates (p.selected.erase e) = waiting at hf
  cases hfree : waiting.filter (fun g => !(p.mark e).unhealthy.contains g) with
  | cons g others =>
    rw [hfree] at hf
    obtain rfl : g = f := by simpa using hf
    have hin : g ∈ waiting.filter (fun g => !(p.mark e).unhealthy.contains g) := by
      rw [hfree]
      exact List.mem_cons_self
    have hunmarked : g ∉ (p.mark e).unhealthy := by simpa using (List.mem_filter.mp hin).2
    rw [mem_mark, not_or] at hunmarked
    have hunselected : g ∉ p.selected := mt (List.mem_erase_of_ne hunmarked.1).mpr hout
    exact Or.inl (mem_spare.mpr ⟨hcandidate, hunselected, hunmarked.2⟩)
  | nil =>
    have hmarked : ∀ g ∈ waiting, g ∈ (p.mark e).unhealthy := by
      simpa using List.filter_eq_nil_iff.mp hfree
    have hall : waiting.filter (p.mark e).unhealthy.contains = waiting :=
      List.filter_eq_self.mpr fun g hg => by simpa using hmarked g hg
    rw [hfree, List.nil_append, hall, ← hwaiting] at hf
    refine Or.inr ⟨spare_eq_nil_iff.mpr fun g hg hunselected => ?_, idxOf_le_of_head?_outside hf⟩
    have hin : g ∈ waiting := by
      rw [← hwaiting]
      exact mem_outside.mpr ⟨hg, fun hkept => hunselected (List.mem_of_mem_erase hkept)⟩
    have hne : g ≠ e := fun hge => hunselected (hge ▸ he)
    exact (mem_mark.mp (hmarked g hin)).resolve_left hne

/-- Another endpoint comes in for a failing one exactly if a candidate outside is unmarked, or
stands before it. -/
theorem Filled.successor_ne_iff {p : BoundedPool} (h : p.Filled) {e f : Endpoint}
    (he : e ∈ p.selected) (hf : p.successor e = some f) :
    f ≠ e ↔ ∃ g ∈ p.candidates, g ∉ p.selected ∧
      (g ∉ p.unhealthy ∨ p.candidates.idxOf g < p.candidates.idxOf e) := by
  rcases successor_cases he hf with hspare | ⟨hnone, hfirst⟩
  · obtain ⟨hcandidate, hunselected, hunmarked⟩ := mem_spare.mp hspare
    exact ⟨fun _ => ⟨f, hcandidate, hunselected, Or.inl hunmarked⟩,
      fun _ hfe => hunselected (hfe ▸ he)⟩
  · obtain ⟨hcandidate, hout⟩ := mem_of_successor hf
    constructor
    · intro hne
      have hle := hfirst e (h.offered e he) h.once.not_mem_erase
      exact ⟨f, hcandidate, mt (List.mem_erase_of_ne hne).mpr hout,
        Or.inr (idxOf_lt_of_ne hcandidate hle hne)⟩
    · rintro ⟨g, hg, hunselected, hunmarked | hbefore⟩ rfl
      · exact hunmarked (spare_eq_nil_iff.mp hnone g hg hunselected)
      · have hle := hfirst g hg fun hin => hunselected (List.mem_of_mem_erase hin)
        omega

/-- A selected endpoint that fails gives its place to a candidate from outside, and asks for a pass,
exactly if one outside is not marked, or stands before it among the candidates. Else it stays, as
the one selected last, and asks for no pass. -/
theorem failing_endpoint_gives_way_iff (quota : Quota) {candidates : List Endpoint}
    {p : BoundedPool} (h : Strategy.Heard ({ quota := quota } : BoundedPool) candidates p)
    {e : Endpoint} (he : e ∈ p.selected) {score : Float} (hfail : ¬0.0 < score) :
    ((e ∉ (p.judge e score).1.selected ∧
        (∃ f ∈ candidates, f ∉ p.selected ∧
          (p.judge e score).1.selected = p.selected.erase e ++ [f]) ∧
        (p.judge e score).2 = true) ↔
      ∃ g ∈ candidates, g ∉ p.selected ∧
        (g ∉ p.unhealthy ∨ candidates.idxOf g < candidates.idxOf e)) ∧
    (e ∈ (p.judge e score).1.selected →
      (p.judge e score).1.selected = p.selected.erase e ++ [e] ∧
        (p.judge e score).2 = false) := by
  obtain ⟨hfilled, rfl, rfl⟩ := filled_of_heard h
  obtain ⟨f, hf, hjudge⟩ := hfilled.judge_failure he hfail
  obtain ⟨hcandidate, hout⟩ := mem_of_successor hf
  rw [hjudge, ← hfilled.successor_ne_iff he hf]
  have hgone : e ∉ (p.swap e f).selected ↔ f ≠ e := by
    show e ∉ p.selected.erase e ++ [f] ↔ f ≠ e
    simp [hfilled.once.not_mem_erase, eq_comm]
  constructor
  · constructor
    · rintro ⟨hleft, -⟩
      exact hgone.mp hleft
    · intro hne
      have hfree : f ∉ p.selected := mt (List.mem_erase_of_ne hne).mpr hout
      exact ⟨hgone.mpr hne, ⟨f, hcandidate, hfree, rfl⟩, decide_eq_true hne⟩
  · intro hstays
    obtain rfl : f = e := not_not.mp (mt hgone.mpr (not_not.mpr hstays))
    exact ⟨rfl, by simp⟩

/-- Of three endpoints with two places, two are marked. The third one fails by a score that is no
number, and of the others the one outside comes in for it, although it is marked. -/
theorem last_of_three_gives_way :
    let a : Endpoint := { host := "a" }
    let b : Endpoint := { host := "b" }
    let c : Endpoint := { host := "c" }
    ∃ p, Strategy.Heard ({ quota := .count 2 } : BoundedPool) [a, b, c] p ∧
      p.selected = [c, a] ∧ p.unhealthy = [a, b] ∧ c ∉ (p.judge c (0.0 / 0.0)).1.selected ∧
      (p.judge c (0.0 / 0.0)).2 = true := by
  intro a b c
  have h : Strategy.Heard ({ quota := .count 2 } : BoundedPool) [a, b, c] _ :=
    ((Strategy.Heard.first.offer [a, b, c]).judge a 0.0).judge b 0.0
  have hnan : ¬(0.0 : Float) < 0.0 / 0.0 := by decide
  obtain ⟨hout, -, hmoved⟩ :=
    (failing_endpoint_gives_way_iff (.count 2) h (e := c) (by decide) hnan).1.mpr ⟨b, by decide⟩
  exact ⟨_, h, by decide, by decide, hout, hmoved⟩

/-- Two endpoints share one place. When both are marked and the first fails again, it is selected
again although the other one is not selected. -/
theorem first_of_two_is_selected_again :
    let a : Endpoint := { host := "a" }
    let b : Endpoint := { host := "b" }
    ∃ p, Strategy.Heard ({ quota := .count 1 } : BoundedPool) [a, b] p ∧ p.selected = [a] ∧
      b ∈ p.candidates ∧ b ∉ p.selected ∧ (p.judge a 0.0).1.selected = [a] ∧
      (p.judge a 0.0).2 = false := by
  intro a b
  have h : Strategy.Heard ({ quota := .count 1 } : BoundedPool) [a, b] _ :=
    ((Strategy.Heard.first.offer [a, b]).judge a 0.0).judge b 0.0
  exact ⟨_, h, by decide, by decide, by decide, by decide, by decide⟩

/-! ## How often a selection can still move -/

/-- The places of the selected endpoints among the candidates, added up. -/
def standing (p : BoundedPool) : Nat :=
  (p.selected.map p.candidates.idxOf).sum

/-- A bound on how often reports of selected endpoints can still move the selection. -/
def slack (p : BoundedPool) : Nat :=
  if p.spare = [] then p.standing
  else p.spare.length + p.candidates.length * p.candidates.length

/-- The places of the selected endpoints add up to no more than the square of the number of
candidates. -/
theorem Filled.standing_le {p : BoundedPool} (h : p.Filled) :
    p.standing ≤ p.candidates.length * p.candidates.length := by
  have hlength : p.selected.length ≤ p.candidates.length :=
    Nat.le_trans h.fits (Quota.maxFor_le _ _)
  have hindex : ∀ i ∈ p.selected.map p.candidates.idxOf, i ≤ p.candidates.length := by
    intro i hi
    obtain ⟨e, -, rfl⟩ := List.mem_map.mp hi
    exact List.idxOf_le_length
  calc p.standing
      ≤ (p.selected.map p.candidates.idxOf).length * p.candidates.length :=
        List.sum_le_card_nsmul _ _ hindex
    _ = p.selected.length * p.candidates.length := by rw [List.length_map]
    _ ≤ p.candidates.length * p.candidates.length := Nat.mul_le_mul_right _ hlength

/-- There are never more moves left than the square of the number of candidates and that number. -/
theorem Filled.slack_le {p : BoundedPool} (h : p.Filled) :
    p.slack ≤ p.candidates.length * p.candidates.length + p.candidates.length := by
  have hstanding := h.standing_le
  have hspare : p.spare.length ≤ p.candidates.length :=
    ((nodup_spare p).subperm fun e he => (mem_spare.mp he).1).length_le
  unfold slack
  split <;> omega

/-- The mark that a selected endpoint loses is none of those outside. -/
theorem slack_clear {p : BoundedPool} {e : Endpoint} (he : e ∈ p.selected) :
    (p.clear e).slack = p.slack := by
  have hspare : (p.clear e).spare = p.spare := by
    refine List.filter_congr fun g hg => ?_
    have hne : g ≠ e := fun hge => (mem_outside.mp hg).2 (hge ▸ he)
    simp [clear, hne]
  rw [slack, hspare]
  rfl

/-- A swap makes nobody spare. -/
theorem mem_spare_swap {p : BoundedPool} {e f g : Endpoint} (hg : g ∈ (p.swap e f).spare) :
    g ∈ p.spare ∧ g ≠ f := by
  obtain ⟨hg, hout, hunmarked⟩ := mem_spare.mp hg
  rw [candidates_swap] at hg
  rw [mem_unhealthy_swap, not_or] at hunmarked
  have hout : g ∉ p.selected.erase e ++ [f] := hout
  rw [List.mem_append, not_or, List.mem_singleton] at hout
  exact ⟨mem_spare.mpr ⟨hg, mt (List.mem_erase_of_ne hunmarked.1).mpr hout.1, hunmarked.2⟩, hout.2⟩

/-- A spare candidate that comes in leaves fewer of them. -/
theorem length_spare_swap_lt {p : BoundedPool} {e f : Endpoint} (hf : f ∈ p.spare) :
    (p.swap e f).spare.length < p.spare.length := by
  have honce : (f :: (p.swap e f).spare).Nodup :=
    List.nodup_cons.mpr ⟨fun hin => (mem_spare_swap hin).2 rfl, nodup_spare _⟩
  refine (honce.subperm fun g hg => ?_).length_le
  rcases List.mem_cons.mp hg with rfl | hg
  · exact hf
  · exact (mem_spare_swap hg).1

/-- A swap takes the place of the failing endpoint from the sum, and adds that of the one that comes
in. -/
theorem standing_swap {p : BoundedPool} {e f : Endpoint} (he : e ∈ p.selected) :
    p.candidates.idxOf e + (p.swap e f).standing = p.standing + p.candidates.idxOf f := by
  have hrest := List.sum_map_erase p.candidates.idxOf he
  have hswap : (p.swap e f).standing =
      ((p.selected.erase e).map p.candidates.idxOf).sum + p.candidates.idxOf f := by
    rw [standing, candidates_swap]
    show ((p.selected.erase e ++ [f]).map p.candidates.idxOf).sum = _
    rw [List.map_append, List.sum_append, List.map_singleton, List.sum_singleton]
  rw [hswap, standing]
  omega

/-- A spare candidate that comes in uses up a move. -/
theorem Filled.slack_swap_lt {p : BoundedPool} {e f : Endpoint} (h : (p.swap e f).Filled)
    (hf : f ∈ p.spare) : (p.swap e f).slack < p.slack := by
  have hfewer := length_spare_swap_lt (e := e) hf
  have hstanding := h.standing_le
  rw [candidates_swap] at hstanding
  rw [slack, slack, if_neg (List.ne_nil_of_mem hf), candidates_swap]
  split <;> omega

/-- While nobody is spare, what the successor stands before the failing endpoint is used up. -/
theorem slack_swap {p : BoundedPool} {e f : Endpoint} (he : e ∈ p.selected) (hnone : p.spare = []) :
    p.candidates.idxOf e + (p.swap e f).slack = p.slack + p.candidates.idxOf f := by
  have hstill : (p.swap e f).spare = [] := by
    refine List.eq_nil_iff_forall_not_mem.mpr fun g hg => ?_
    have hgone := (mem_spare_swap hg).1
    rw [hnone] at hgone
    cases hgone
  rw [slack, slack, if_pos hnone, if_pos hstill]
  exact standing_swap he

/-- A report of a selected endpoint leaves no more moves than before, and fewer if it is one. -/
theorem Filled.slack_judge {p : BoundedPool} (h : p.Filled) {e : Endpoint} (he : e ∈ p.selected)
    (score : Float) :
    (p.judge e score).1.slack ≤ p.slack ∧
      ((p.judge e score).2 = true → (p.judge e score).1.slack < p.slack) := by
  have hfilled := h.judge e score
  rcases h.judge_cases e score with hjudge | ⟨hout, -⟩ | ⟨-, f, hf, hjudge⟩
  · rw [hjudge]
    exact ⟨Nat.le_of_eq (slack_clear he), nofun⟩
  · exact absurd he hout
  rw [hjudge] at hfilled ⊢
  rcases successor_cases he hf with hspare | ⟨hnone, hfirst⟩
  · have hless := Filled.slack_swap_lt hfilled hspare
    exact ⟨Nat.le_of_lt hless, fun _ => hless⟩
  · have hbalance := slack_swap (f := f) he hnone
    have hle := hfirst e (h.offered e he) h.once.not_mem_erase
    show (p.swap e f).slack ≤ p.slack ∧ (decide (f ≠ e) = true → (p.swap e f).slack < p.slack)
    refine ⟨by omega, fun hmoved => ?_⟩
    have hlt := idxOf_lt_of_ne (mem_of_successor hf).1 hle (of_decide_eq_true hmoved)
    omega

end HealthWatch.BoundedPool
