import HealthWatch.Proofs.Supervisor.Household

/-!
# Every watch ends once

The end of a watch is called for when the watch leaves force, by the pass that lets it go or by the
call that begins the close. As the account of ends is a permutation of the numbers of all watches,
it says how often that is: once for every watch that is not in force, and never for one that is.
From there the work goes on in order, so a check is told to stop once at most, and a watch makes one
final report at most.
-/

set_option autoImplicit false

namespace HealthWatch

variable {σ : Type} [Strategy σ]

namespace Supervisor

omit [Strategy σ] in
/-- The watches on an endpoint may be counted by their numbers. -/
theorem countP_watches (s : Supervisor σ) (e : Endpoint) :
    s.watches.countP (fun w => w.origin == e) =
      (List.range s.watches.length).countP (s.isOn e) := by
  have hall : (List.range s.watches.length).map (fun i => s.watches[i]?) = s.watches.map some := by
    apply List.ext_getElem
    · simp
    · intro i hi _
      have hlt : i < s.watches.length := by simpa using hi
      simp [hlt]
  have hcounted : (s.watches.map some).countP (fun w => w.any fun w => w.origin == e) =
      s.watches.countP (fun w => w.origin == e) := by
    rw [List.countP_map]
    rfl
  rw [← hcounted, ← hall, List.countP_map]
  rfl

omit [Strategy σ] in
/-- An endpoint has one watch in force, or none. -/
theorem Manned.countP_barrier {s : Supervisor σ} (h : s.Manned) (e : Endpoint) :
    s.barrier.countP (s.isOn e) = if s.watching e then 1 else 0 := by
  have hentries : s.current.countP (fun entry => s.isOn e entry.2) =
      s.current.countP (fun entry => entry.1 == e) := by
    apply List.countP_congr
    rintro ⟨f, i⟩ hin
    obtain ⟨w, hw, rfl, -⟩ := h.live f i hin
    simp [isOn, hw]
  have hforce : s.current.countP (fun entry => entry.1 == e) = s.inForce.count e := by
    rw [List.count, inForce, List.countP_map]
    rfl
  rw [barrier, List.countP_map]
  calc s.current.countP (fun entry => s.isOn e entry.2) = s.inForce.count e :=
        hentries.trans hforce
    _ = if s.watching e then 1 else 0 := by
        rw [h.once.count]
        simp [watching]

end Supervisor

namespace Household

open Supervisor (Event)

/-! ## How often the end of a watch is called for -/

omit [Strategy σ] in
/-- The end of a watch that is not in force was called for once, and that of one in force was not.
-/
theorem Account.count_issued {h : Household σ} (hs : h.Account) (i : Nat) :
    h.issued.count i =
      if i < h.supervisor.watches.length ∧ i ∉ h.supervisor.barrier then 1 else 0 := by
  rw [hs.nodup_issued.count]
  simp only [hs.mem_issued]

omit [Strategy σ] in
/-- The watches begun on an endpoint are those whose ends were called for, and the one in force. -/
theorem Account.countP_watches {h : Household σ} (hs : h.Account) (hmanned : h.supervisor.Manned)
    (e : Endpoint) :
    h.supervisor.watches.countP (fun w => w.origin == e) =
      h.issued.countP (h.supervisor.isOn e) + if h.supervisor.watching e then 1 else 0 := by
  rw [Supervisor.countP_watches, ← hs.countP_eq, List.countP_append, hmanned.countP_barrier,
    Nat.add_comm]

/-- A check is told to stop once for each watch whose end was taken up, and a watch ends once for
each that has ended. -/
theorem countP_acts {terms : Terms} {strategy : σ} {acts : List Act} {h : Household σ}
    (r : Run (founded terms strategy) acts h) (i : Nat) :
    acts.countP (Act.stops i) = (h.stopping ++ h.ended).count i ∧
      acts.countP (Act.finishes i) = h.ended.count i := by
  induction r with
  | nil => exact ⟨rfl, rfl⟩
  | @snoc acts act h g r k ih =>
    obtain ⟨hstops, hfinishes⟩ := ih
    rw [List.countP_append, List.countP_append, hstops, hfinishes]
    cases k with
    | @stop j _ =>
      have hmore : (j :: (h.stopping ++ h.ended)).count i =
          (h.stopping ++ h.ended).count i + if j == i then 1 else 0 := List.count_cons
      refine ⟨?_, rfl⟩
      rw [List.countP_singleton]
      exact hmore.symm
    | @finish j _ hstopping _ =>
      have hmoved : (h.stopping.erase j ++ j :: h.ended).Perm (h.stopping ++ h.ended) :=
        List.perm_middle.trans ((List.perm_cons_erase hstopping).symm.append_right h.ended)
      have hmore : (j :: h.ended).count i = h.ended.count i + if j == i then 1 else 0 :=
        List.count_cons
      refine ⟨(hmoved.count_eq i).symm, ?_⟩
      rw [List.countP_singleton]
      exact hmore.symm
    | _ => exact ⟨rfl, rfl⟩

/-! ## Main statement -/

/-- The end of a watch is called for once if the watch has left force, and not at all if it is in
force, in the middle of a call too. So a check is told to stop once at most, and a watch makes one
final report at most. Between two events the watches begun on an endpoint are as many as the ends
called for there, and one more if a watch is in force on it. And once the close has begun no watch
is begun any more. -/
theorem every_watch_is_ended_once (terms : Terms) (strategy : σ) {acts : List Act}
    {h : Household σ} (r : Run (founded terms strategy) acts h) :
    (∀ i, h.issued.count i =
      if i < h.supervisor.watches.length ∧ i ∉ h.supervisor.barrier then 1 else 0) ∧
    (∀ i, acts.countP (Act.stops i) ≤ 1 ∧ acts.countP (Act.finishes i) ≤ 1) ∧
    (∀ e, h.supervisor.watches.countP (fun w => w.origin == e) =
      h.issued.countP (h.supervisor.isOn e) + if h.supervisor.watching e then 1 else 0) ∧
    (∀ event u, Supervisor.WithinEvent h.supervisor event u →
      ∃ since, u.released = h.supervisor.released ++ since ∧
        (u.barrier ++ (h.issued ++ since)).Nodup) ∧
    (h.supervisor.closing = true → ∀ later g, Run h later g →
      g.supervisor.watches.length = h.supervisor.watches.length) := by
  have hs : h.Sound terms strategy := Sound.founded.run r
  obtain ⟨events, hlife⟩ := hs.lives
  refine ⟨hs.account.count_issued, ?_, hs.account.countP_watches hlife.manned, ?_, ?_⟩
  · intro i
    obtain ⟨hstops, hfinishes⟩ := countP_acts r i
    have honce : (h.stopping ++ h.ended).Nodup :=
      hs.account.nodup_issued.sublist (List.sublist_append_right h.due _)
    have hended : h.ended.Nodup := honce.sublist (List.sublist_append_right h.stopping _)
    rw [hstops, hfinishes]
    exact ⟨List.nodup_iff_count_le_one.mp honce i, List.nodup_iff_count_le_one.mp hended i⟩
  · intro event u hu
    exact hu.separate (hs.account.accounts (List.Perm.refl h.issued))
  · intro hclosing later g hlater
    obtain ⟨more, hmore⟩ := hlater.supervisor hs
    exact (hmore.unmoved_of_closing hlife.refreshing hclosing).1.length

/-- A watch is let go for a failure, and its end is taken up; then the supervisor is closed, twice.
The ends of both watches were called for, and each was told to stop once. -/
theorem two_watches_end_once :
    let a : Endpoint := { host := "a" }
    let b : Endpoint := { host := "b" }
    let acts : List Act :=
      [.event (.offer [a, b]), .event (.report 0 1.0), .event .start, .event (.report 0 0.0),
        .stop 0, .close, .close, .turn 0, .turn 1, .stop 1, .finish 1]
    let later : List Act := [.finish 0, .turn 0, .leave 0, .event (.offer [a]), .turn 0, .turn 1]
    ∃ h g, Run (founded {} (Policy.ofQuota (some (.count 1)))) acts h ∧ Run h later g ∧
      h.supervisor.closing = true ∧ h.stopping = [0] ∧ h.ended = [1] ∧
      (∀ i, h.issued.count i = if i < 2 then 1 else 0) ∧
      (∀ i, acts.countP (Act.stops i) ≤ 1) ∧
      g.closers = [.over, .over] ∧ g.supervisor.watches.length = h.supervisor.watches.length := by
  intro a b acts later
  obtain ⟨h, g, r, hlater, hclosing, hwatches, hbarrier, hstopping, hended, hclosers⟩ :
      ∃ h g, Run (founded {} (Policy.ofQuota (some (.count 1)))) acts h ∧ Run h later g ∧
        h.supervisor.closing = true ∧ h.supervisor.watches.length = 2 ∧
        h.supervisor.barrier = [] ∧ h.stopping = [0] ∧ h.ended = [1] ∧
        g.closers = [.over, .over] :=
    exists_runs_of_replay (n := 9) (by decide)
  obtain ⟨hissued, honce, -, -, hnone⟩ := every_watch_is_ended_once {} _ r
  refine ⟨h, g, r, hlater, hclosing, hstopping, hended, ?_, fun i => (honce i).1, hclosers, ?_⟩
  · intro i
    rw [hissued i, hwatches, hbarrier]
    simp
  · exact hnone hclosing later g hlater

end Household

end HealthWatch
