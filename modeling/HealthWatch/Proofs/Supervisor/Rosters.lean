import HealthWatch.Proofs.Supervisor.Moments

/-!
# Rosters of watches

A watch keeps its jobs through every event that does not handle them (`Step.roster`), and loses them
all at its end (`roster_of_retire`).
-/

set_option autoImplicit false

namespace HealthWatch.Supervisor

variable {σ : Type} [Strategy σ]

/-- Does an event enter jobs of a watch, take them out or drop them? -/
def Event.handlesJobsOf (watch : Nat) : Event → Bool
  | .retire other | .enterJob other | .releaseJob other _ => other == watch
  | _ => false

omit [Strategy σ] in
/-- A watch that is carried along keeps its jobs. -/
theorem Carried.roster {s t : Supervisor σ} (h : Carried s t) {i : Nat} {w : Watch}
    (hw : s.watches[i]? = some w) : ∃ v, t.watches[i]? = some v ∧ v.roster = w.roster := by
  obtain ⟨v, hv, -, hroster⟩ := h i w hw
  exact ⟨v, hv, hroster⟩

/-- An event that does not handle the jobs of a watch leaves them. -/
theorem Step.roster {s t : Supervisor σ} {event : Event} (k : Step s event t)
    (hrest : s.refreshing = false) {i : Nat} (hother : event.handlesJobsOf i = false) {w : Watch}
    (hw : s.watches[i]? = some w) : ∃ v, t.watches[i]? = some v ∧ v.roster = w.roster := by
  have hpublish (u : Supervisor σ) (reason : Bool) (hu : Carried s u) :
      Carried s (u.republishIf reason) :=
    republishIf_keeps (fun _ _ _ hv => hv) hu reason
  have hmodify {j : Nat} (hne : (j == i) = false) (f : Watch → Watch) :
      (s.modifyWatch j f).watches[i]? = some w := by
    rw [modifyWatch, List.getElem?_modify_ne _ _ (by simpa using hne)]
    exact hw
  cases k with
  | listen _ => exact ⟨w, hw, rfl⟩
  | offer h => exact ((keptByPasses_carried s).offer hpublish hrest h (Carried.refl s)).roster hw
  | report h => exact (carried_deliver hrest h).roster hw
  | @retire j _ _ h =>
    obtain rfl | ⟨_, -, -, h⟩ := retire_eq_some h
    · exact ⟨w, hw, rfl⟩
    · exact (carried_deliver (by exact hrest) h).roster (hmodify hother Watch.retire)
  | start _ =>
    have hstarted : Carried s { s with started := true } := Carried.refl s
    exact (hpublish _ true hstarted).roster hw
  | beginClose _ => exact ⟨w, hw, rfl⟩
  | finishClose _ => exact ⟨w, hw, rfl⟩
  | enterJob h =>
    obtain ⟨f, rfl, -⟩ := eq_modifyWatch_of_enterJob h
    exact ⟨w, hmodify hother f, rfl⟩
  | releaseJob j id => exact ⟨w, hmodify hother _, rfl⟩

/-- At the end of a watch its roster is closed, if it was not before. -/
theorem roster_of_retire {s t : Supervisor σ} (hrest : s.refreshing = false) {i : Nat} {w : Watch}
    (hw : s.watches[i]? = some w) (h : s.retire i = some t) :
    (w.roster.closed = true ∧ t = s) ∨
      t.refreshing = false ∧ ∃ v, t.watches[i]? = some v ∧ v.roster = w.roster.close := by
  rcases retire_cases h with ⟨rfl, hretired⟩ | ⟨_, -, -, h⟩
  · exact Or.inl ⟨hretired w hw, rfl⟩
  · have hidle : (s.modifyWatch i Watch.retire).refreshing = false := hrest
    have hclosed : (s.modifyWatch i Watch.retire).watches[i]? = some w.retire := by
      simp [modifyWatch, hw]
    exact Or.inr ⟨(Steady.deliver hidle h).refreshing.trans hidle,
      (carried_deliver hidle h).roster hclosed⟩

omit [Strategy σ] in
/-- A job is entered in the roster of its watch, which gives it its number. -/
theorem enterJob_eq {s : Supervisor σ} {i : Nat} {w : Watch} (hw : s.watches[i]? = some w) :
    s.enterJob i = w.roster.enter.map fun (id, r) =>
      (id, s.modifyWatch i fun w => { w with roster := r }) := by
  rw [enterJob, hw]
  cases hentered : w.roster.enter <;> simp [hentered]

end HealthWatch.Supervisor
