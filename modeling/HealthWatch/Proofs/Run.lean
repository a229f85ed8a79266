/-!
# Runs

The systems of this library are given by labelled steps: what happens, and the states before and
after it. A run is a sequence of such steps. What holds at first and is kept by every step holds
after every run (`Run.keeps`), runs can be joined (`Run.append`), and where the steps can be
computed, so can runs (`Run.of_foldlM`).
-/

set_option autoImplicit false

namespace HealthWatch

variable {α β : Type} {Step : α → β → α → Prop}

/-- A sequence of steps with these labels, the latest last, from one state to another. -/
inductive Run (Step : α → β → α → Prop) (s : α) : List β → α → Prop where
  | nil : Run Step s [] s
  | snoc {labels : List β} {label : β} {t u : α} (h : Run Step s labels t) (k : Step t label u) :
      Run Step s (labels ++ [label]) u

namespace Run

variable {s t u : α} {label : β} {labels later : List β}

/-- A property that holds at first and that every step keeps holds after every run. -/
theorem keeps {P : α → Prop} (h : Run Step s labels t)
    (hstep : ∀ t label u, P t → Step t label u → P u) (hs : P s) : P t := by
  induction h with
  | nil => exact hs
  | snoc _ k ih => exact hstep _ _ _ ih k

/-- One step is a run. -/
theorem single (k : Step s label t) : Run Step s [label] t :=
  nil.snoc k

/-- A run can be preceded by a step. -/
theorem cons (k : Step s label t) (h : Run Step t labels u) : Run Step s (label :: labels) u := by
  induction h with
  | nil => exact single k
  | snoc _ l ih => exact ih.snoc l

/-- A run from where another one ends goes on with it. -/
theorem append (h : Run Step s labels t) (k : Run Step t later u) :
    Run Step s (labels ++ later) u := by
  induction k with
  | nil => rwa [List.append_nil]
  | snoc _ l ih =>
    rw [← List.append_assoc]
    exact ih.snoc l

/-! ## Runs that are computed -/

/-- Where a function gives steps from the states of an invariant, and the steps keep it, repeating
the function gives a run. -/
theorem of_foldlM {f : α → β → Option α} {P : α → Prop}
    (hstep : ∀ {s label t}, label ∈ labels → P s → f s label = some t → Step s label t ∧ P t)
    (hs : P s) (h : labels.foldlM f s = some t) : Run Step s labels t := by
  induction labels generalizing s with
  | nil =>
    cases h
    exact nil
  | cons label labels ih =>
    rw [List.foldlM_cons] at h
    obtain ⟨u, hu, h⟩ := Option.bind_eq_some_iff.mp h
    obtain ⟨k, hkept⟩ := hstep List.mem_cons_self hs hu
    exact cons k (ih (fun hin => hstep (List.mem_cons_of_mem _ hin)) hkept h)

/-- A property of what is computed is one that some run arrives at. -/
theorem exists_of_foldlM {f : α → β → Option α} {P : α → Prop}
    (hstep : ∀ {s label t}, label ∈ labels → P s → f s label = some t → Step s label t ∧ P t)
    (hs : P s) {Q : α → Prop} [DecidablePred Q]
    (h : (labels.foldlM f s).any (fun t => Q t) = true) : ∃ t, Run Step s labels t ∧ Q t := by
  obtain ⟨t, ht, hQ⟩ := (Option.any_eq_true _ _).mp h
  exact ⟨t, of_foldlM hstep hs ht, of_decide_eq_true hQ⟩

end Run

end HealthWatch
