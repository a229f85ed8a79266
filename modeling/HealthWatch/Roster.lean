/-!
# Rosters

The jobs of one watch that are under way. A job is entered under a number that is never used again
and leaves when it has run or is cancelled. Closing the roster drops every job in it; a closed
roster takes no more.

Numbers are naturals, without a bound. A counter in a word of 64 bits gives the same ones for the
first 2 ^ 64 jobs of a watch, more than any watch lives to take.
-/

set_option autoImplicit false

namespace HealthWatch

/-- The numbers of the jobs under way. -/
structure Roster where
  /-- The number of the next job that is taken. -/
  nextId : Nat := 0
  pending : List Nat := []
  closed : Bool := false
deriving Repr, Inhabited

namespace Roster

/-- Enters a job and gives its number; a closed roster refuses. -/
def enter (r : Roster) : Option (Nat × Roster) :=
  if r.closed then none
  else some (r.nextId, { r with nextId := r.nextId + 1, pending := r.pending ++ [r.nextId] })

/-- Takes a job out, because it has run or because it is cancelled. -/
def release (r : Roster) (id : Nat) : Roster :=
  { r with pending := r.pending.filter (· != id) }

/-- Is the job still under way? -/
def holds (r : Roster) (id : Nat) : Bool :=
  r.pending.contains id

/-- Drops every job and takes no more. -/
def close (r : Roster) : Roster :=
  { r with pending := [], closed := true }

/-- A roster takes in a job unless it is closed. -/
theorem enter_eq_none_iff {r : Roster} : r.enter = none ↔ r.closed = true := by
  simp [enter]

/-- An open roster gives a new job the next number and puts it last among those under way. -/
theorem enter_eq_some_iff {r r' : Roster} {id : Nat} :
    r.enter = some (id, r') ↔ r.closed = false ∧ id = r.nextId ∧
      r' = { r with nextId := r.nextId + 1, pending := r.pending ++ [r.nextId] } := by
  unfold enter
  cases r.closed with
  | true => simp
  | false =>
    rw [if_neg Bool.false_ne_true, Option.some_inj, Prod.mk.injEq]
    exact ⟨fun ⟨hid, hr⟩ => ⟨rfl, hid.symm, hr.symm⟩, fun ⟨_, hid, hr⟩ => ⟨hid.symm, hr.symm⟩⟩

end Roster

end HealthWatch
