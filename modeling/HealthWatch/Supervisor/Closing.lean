import HealthWatch.Supervisor

/-!
# Closing

A call that closes a supervisor goes through stages. It takes all watches out of force, waits until
these have ended, has the source closed, and then closes the published feed. A call that finds the
supervisor closing waits until that is over.
-/

set_option autoImplicit false

namespace HealthWatch

/-- How far a call that closes a supervisor has come. -/
inductive CloseStage where
  | entering
  /-- The watches taken out of force are being ended. -/
  | stopping (watches : List Nat)
  /-- The source is being closed. -/
  | leaving
  /-- The source is closed. -/
  | left
  /-- Another call closes the supervisor. -/
  | awaiting
  | over
deriving Repr, DecidableEq

namespace Supervisor

variable {σ : Type}

/-- Have these watches ended? -/
def allRetired (s : Supervisor σ) (watches : List Nat) : Bool :=
  watches.all (fun i => (s.watches[i]?).all Watch.retired)

/-- The next turn of a call that closes the supervisor, if it does not have to wait. When the source
is closed is up to the source. -/
def closeTurn (s : Supervisor σ) : CloseStage → Option (CloseStage × Supervisor σ)
  | .entering =>
    if s.closing then some (.awaiting, s)
    else some (.stopping s.beginClose.1, s.beginClose.2)
  | .stopping watches => if s.allRetired watches then some (.leaving, s) else none
  | .left => some (.over, s.finishClose)
  | .awaiting => if s.closed then some (.over, s) else none
  | .leaving | .over => none

end Supervisor

end HealthWatch
