import HealthWatch.Proofs.Strategy.Filling
import HealthWatch.Strategy.Policy

/-!
# What a supervisor relies on

A supervisor makes passes only when its strategy asks for them, so a strategy has to ask whenever a
score changes which endpoints it selects: `LawfulStrategy`. All policies are lawful.

What a strategy selects is to be among the candidates it was offered last, whatever it has heard
(`Strategy.SelectsOffered`). Policies do that (`Policy.Sound`), and a report leaves a policy as it
is exactly where `Policy.Indifferent` says so.
-/

set_option autoImplicit false

namespace HealthWatch

/-- A strategy that asks for a pass whenever a score changes which endpoints it selects. -/
class LawfulStrategy (σ : Type) [Strategy σ] : Prop where
  mem_selected_judge : ∀ (s : σ) (e : Endpoint) (score : Float),
    (Strategy.judge s e score).2 = false →
      ∀ f, f ∈ Strategy.selected (Strategy.judge s e score).1 ↔ f ∈ Strategy.selected s

instance : LawfulStrategy AllCandidates where
  mem_selected_judge _ _ _ _ _ := Iff.rfl

instance : LawfulStrategy BoundedPool where
  mem_selected_judge _ _ _ h f := BoundedPool.mem_selected_judge h f

namespace Strategy

variable {σ : Type} [Strategy σ]

/-- The states that offers and reports bring a strategy to, with the candidates it was offered
last. -/
inductive Heard (first : σ) : List Endpoint → σ → Prop where
  | first : Heard first [] first
  | offer {old : List Endpoint} {s : σ} (h : Heard first old s) (candidates : List Endpoint) :
      Heard first candidates (Strategy.offer s candidates)
  | judge {candidates : List Endpoint} {s : σ} (h : Heard first candidates s) (e : Endpoint)
      (score : Float) : Heard first candidates (Strategy.judge s e score).1

/-- Whatever it hears, a strategy selects among the candidates it was offered last. -/
def SelectsOffered (first : σ) : Prop :=
  ∀ candidates s, Heard first candidates s → ∀ e ∈ Strategy.selected s, e ∈ candidates

end Strategy

namespace Policy

/-- A policy asks for a pass whenever a score changes which endpoints it selects. -/
theorem mem_selected_judge {p : Policy} {e : Endpoint} {score : Float}
    (h : (p.judge e score).2 = false) (f : Endpoint) :
    f ∈ (p.judge e score).1.selected ↔ f ∈ p.selected := by
  induction p with
  | all state => rfl
  | bounded pool => exact BoundedPool.mem_selected_judge h f
  | recorded told always base ih =>
    have hbase : (base.judge e score).2 = false := (Bool.or_eq_false_iff.mp h).2
    exact ih hbase

end Policy

instance : LawfulStrategy Policy where
  mem_selected_judge _ _ _ h f := Policy.mem_selected_judge h f

namespace Policy

/-! ## Policies that select among the candidates -/

/-- A policy that was offered nothing and has heard nothing. -/
def Unused : Policy → Prop
  | all state => state = {}
  | bounded pool => pool = { quota := pool.quota }
  | recorded told _ base => told = [] ∧ base.Unused

/-- A policy is made unused. -/
theorem unused_ofQuota (quota : Option Quota) : (ofQuota quota).Unused := by
  cases quota <;> rfl

/-- A policy that was last offered these candidates; if it has a pool, this is filled. -/
def Sound (candidates : List Endpoint) : Policy → Prop
  | all state => state.candidates = candidates
  | bounded pool => pool.candidates = candidates ∧ pool.Filled
  | recorded _ _ base => base.Sound candidates

/-- An unused policy was offered no candidates, and a pool in it is filled. -/
theorem Unused.sound {p : Policy} (h : p.Unused) : p.Sound [] := by
  induction p with
  | all state =>
    obtain rfl : state = {} := h
    rfl
  | bounded pool =>
    have hpool : pool = { quota := pool.quota } := h
    rw [hpool]
    exact ⟨rfl, BoundedPool.filled_unused pool.quota⟩
  | recorded told always base ih => exact ih h.2

/-- An unused policy selects nothing. -/
theorem Unused.selected {p : Policy} (h : p.Unused) : p.selected = [] := by
  induction p with
  | all state =>
    obtain rfl : state = {} := h
    rfl
  | bounded pool =>
    have hpool : pool = { quota := pool.quota } := h
    exact congrArg BoundedPool.selected hpool
  | recorded told always base ih => exact ih h.2

/-- After an offer a policy is sound for the new candidates. -/
theorem Sound.offer {p : Policy} {old : List Endpoint} (h : p.Sound old)
    (candidates : List Endpoint) : (p.offer candidates).Sound candidates := by
  induction p with
  | all state => rfl
  | bounded pool => exact ⟨rfl, h.2.offer candidates⟩
  | recorded told always base ih => exact ih h

/-- A report keeps a policy sound. -/
theorem Sound.judge {p : Policy} {candidates : List Endpoint} (h : p.Sound candidates)
    (e : Endpoint) (score : Float) : (p.judge e score).1.Sound candidates := by
  induction p with
  | all state => exact h
  | bounded pool =>
    exact ⟨(BoundedPool.candidates_judge pool e score).1.trans h.1, h.2.judge e score⟩
  | recorded told always base ih => exact ih h

/-- Every selected endpoint is a candidate. -/
theorem Sound.mem_candidates {p : Policy} {candidates : List Endpoint} (h : p.Sound candidates)
    {e : Endpoint} (he : e ∈ p.selected) : e ∈ candidates := by
  induction p with
  | all state =>
    obtain rfl : state.candidates = candidates := h
    exact he
  | bounded pool =>
    obtain ⟨rfl, hfilled⟩ := h
    exact hfilled.offered e he
  | recorded told always base ih => exact ih h he

/-- A policy that starts unused is sound for the last offer, whatever it hears. -/
theorem sound_of_heard {p q : Policy} {candidates : List Endpoint} (h : p.Unused)
    (hq : Strategy.Heard p candidates q) : q.Sound candidates := by
  induction hq with
  | first => exact h.sound
  | offer _ candidates ih => exact ih.offer candidates
  | judge _ e score ih => exact ih.judge e score

/-- A policy that starts unused only selects among the candidates it was offered last. -/
theorem selectsOffered {p : Policy} (h : p.Unused) : Strategy.SelectsOffered p :=
  fun _ _ hq _ he => (sound_of_heard h hq).mem_candidates he

/-! ## Reports that leave a policy as it is -/

/-- The reports that a policy takes without a change; one that is recorded always is a change. -/
def Indifferent : Policy → Endpoint → Float → Prop
  | all _, _, _ => True
  | bounded pool, e, score => pool.Indifferent e score
  | recorded _ _ _, _, _ => False

instance : (p : Policy) → (e : Endpoint) → (score : Float) → Decidable (p.Indifferent e score)
  | all _, _, _ => inferInstanceAs (Decidable True)
  | bounded pool, e, score => inferInstanceAs (Decidable (pool.Indifferent e score))
  | recorded _ _ _, _, _ => inferInstanceAs (Decidable False)

/-- A report leaves a sound policy as it is just if the policy is indifferent to it. -/
theorem judge_eq_self_iff {p : Policy} {candidates : List Endpoint} (h : p.Sound candidates)
    {e : Endpoint} {score : Float} : (p.judge e score).1 = p ↔ p.Indifferent e score := by
  cases p with
  | all state => exact ⟨fun _ => trivial, fun _ => rfl⟩
  | bounded pool =>
    refine Iff.trans ?_ (BoundedPool.judge_eq_self_iff h.2)
    exact ⟨fun hsame => Policy.bounded.inj hsame, fun hsame => congrArg Policy.bounded hsame⟩
  | recorded told always base =>
    refine ⟨fun hsame => ?_, fun hnever => hnever.elim⟩
    have htold : told ++ [(e, score)] = told := (Policy.recorded.inj hsame).1
    simp at htold

/-- Offers and reports add to what is recorded and take nothing away. -/
theorem length_told_offer (p : Policy) (candidates : List Endpoint) :
    (p.offer candidates).told.length = p.told.length := by
  cases p <;> rfl

/-- A report takes nothing away from what is recorded. -/
theorem length_told_judge (p : Policy) (e : Endpoint) (score : Float) :
    p.told.length ≤ (p.judge e score).1.told.length := by
  cases p with
  | all state => exact Nat.le_refl _
  | bounded pool => exact Nat.le_refl _
  | recorded told always base =>
    show told.length ≤ (told ++ [(e, score)]).length
    simp

/-- A report that asks for a pass puts an endpoint out of the selection or is recorded. -/
theorem exists_put_out_or_told {p : Policy} {candidates : List Endpoint} (h : p.Sound candidates)
    {e : Endpoint} {score : Float} (hmoved : (p.judge e score).2 = true) :
    (∃ f ∈ p.selected, f ∉ (p.judge e score).1.selected) ∨
      p.told.length < (p.judge e score).1.told.length := by
  cases p with
  | all state => cases hmoved
  | bounded pool => exact Or.inl (BoundedPool.exists_put_out h.2 hmoved)
  | recorded told always base =>
    refine Or.inr ?_
    show told.length < (told ++ [(e, score)]).length
    simp

/-- A report that leaves a policy as it is asks for no pass. -/
theorem quiet_of_indifferent {p : Policy} {candidates : List Endpoint} (h : p.Sound candidates)
    {e : Endpoint} {score : Float} (hsame : p.Indifferent e score) :
    (p.judge e score).2 = false := by
  have hstay := (judge_eq_self_iff h).mpr hsame
  cases hmoved : (p.judge e score).2 with
  | false => rfl
  | true =>
    rcases exists_put_out_or_told h hmoved with ⟨f, hf, hout⟩ | htold
    · rw [hstay] at hout
      exact absurd hf hout
    · rw [hstay] at htold
      exact absurd htold (Nat.lt_irrefl _)

end Policy

end HealthWatch
