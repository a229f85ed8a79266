import HealthWatch.Proofs.Strategy.Laws
import HealthWatch.Proofs.Supervisor.Moments

/-!
# Watches in force

At every moment of a life, in the middle of a call too, the watches in force are on different
endpoints, each is on the endpoint it stands for, and none is retired (`Manned`). And whatever a
strategy keeps of the candidates it is offered holds between it and the supervisor's candidates
(`Run.strategy_keeps`).
-/

set_option autoImplicit false

namespace HealthWatch.Supervisor

variable {σ : Type} [Strategy σ]

omit [Strategy σ] in
/-- A watch is in force on an endpoint if there is an entry for the endpoint. -/
theorem mem_inForce {s : Supervisor σ} {e : Endpoint} :
    e ∈ s.inForce ↔ ∃ i, (e, i) ∈ s.current := by
  simp [inForce]

omit [Strategy σ] in
/-- A watch is in force if there is an entry with its number. -/
theorem mem_barrier {s : Supervisor σ} {i : Nat} :
    i ∈ s.barrier ↔ ∃ e, (e, i) ∈ s.current := by
  simp [barrier]

omit [Strategy σ] in
/-- An endpoint is not watched just if no watch is in force on it. -/
theorem watching_eq_false {s : Supervisor σ} {e : Endpoint} :
    s.watching e = false ↔ e ∉ s.inForce := by
  simp [watching]

omit [Strategy σ] in
/-- To let go of what was not chosen leaves watches in force on what was. -/
theorem inForce_releaseUnchosen (s : Supervisor σ) (chosen : List Endpoint) :
    (s.releaseUnchosen chosen).inForce = s.inForce.filter chosen.contains := by
  rw [inForce, inForce, List.filter_map]
  rfl

omit [Strategy σ] in
/-- A watch that comes into force is the last one in force. -/
theorem inForce_enlist (s : Supervisor σ) (e : Endpoint) (i : Nat) :
    (s.enlist e i).inForce = s.inForce ++ [e] := by
  simp [inForce, enlist]

omit [Strategy σ] in
/-- The watches in force are on different endpoints, each is on its endpoint and none is retired. -/
structure Manned (s : Supervisor σ) : Prop where
  once : s.inForce.Nodup
  live : ∀ e i, (e, i) ∈ s.current →
    ∃ w : Watch, s.watches[i]? = some w ∧ w.origin = e ∧ w.retired = false

omit [Strategy σ] in
/-- A fresh supervisor has no watch in force. -/
theorem manned_fresh (terms : Terms) (strategy : σ) : (fresh terms strategy).Manned :=
  ⟨List.nodup_nil, fun _ _ h => by simp [fresh] at h⟩

omit [Strategy σ] in
/-- A watch that is added is not in force yet. -/
theorem Manned.addWatch {s : Supervisor σ} (h : s.Manned) (e : Endpoint) :
    (s.addWatch e).Manned := by
  refine ⟨h.once, ?_⟩
  intro f i hf
  obtain ⟨w, hw, horigin, hlive⟩ := h.live f i hf
  obtain ⟨v, hv, hkept, hroster⟩ := (Carried.refl s).addWatch e i w hw
  exact ⟨v, hv, hkept.trans horigin, by rw [Watch.retired, hroster]; exact hlive⟩

omit [Strategy σ] in
/-- A watch that lives may come into force on its endpoint, if none is in force there. -/
theorem Manned.enlist {s : Supervisor σ} (h : s.Manned) {i : Nat} {w : Watch}
    (hw : s.watches[i]? = some w) (hlive : w.retired = false)
    (hfree : s.watching w.origin = false) : (s.enlist w.origin i).Manned := by
  constructor
  · rw [inForce_enlist]
    refine List.nodup_append.mpr ⟨h.once, by simp, ?_⟩
    intro e he f hf hef
    obtain rfl := List.mem_singleton.mp hf
    exact watching_eq_false.mp hfree (hef ▸ he)
  · intro e j hin
    rcases List.mem_append.mp hin with hin | hin
    · exact h.live e j hin
    · obtain ⟨rfl, rfl⟩ := Prod.mk.inj (List.mem_singleton.mp hin)
      exact ⟨w, hw, rfl, hlive⟩

omit [Strategy σ] in
/-- To let go of watches leaves the others as they are. -/
theorem Manned.releaseUnchosen {s : Supervisor σ} (h : s.Manned) (chosen : List Endpoint) :
    (s.releaseUnchosen chosen).Manned := by
  constructor
  · rw [inForce_releaseUnchosen]
    exact h.once.filter _
  · intro e i hin
    exact h.live e i (List.mem_filter.mp hin).1

omit [Strategy σ] in
/-- A watch may change but for its endpoint, and be retired if it is not in force. -/
theorem Manned.modifyWatch {s : Supervisor σ} (h : s.Manned) {i : Nat} {f : Watch → Watch}
    (horigin : ∀ w, s.watches[i]? = some w → (f w).origin = w.origin)
    (hretired : ∀ w, s.watches[i]? = some w → (f w).retired = true →
      w.retired = true ∨ i ∉ s.barrier) : (s.modifyWatch i f).Manned := by
  refine ⟨h.once, ?_⟩
  intro e j hin
  obtain ⟨w, hw, he, hlive⟩ := h.live e j hin
  by_cases hij : i = j
  · subst hij
    refine ⟨f w, by simp [Supervisor.modifyWatch, hw], (horigin w hw).trans he, ?_⟩
    cases hclosed : (f w).retired with
    | false => rfl
    | true =>
      rcases hretired w hw hclosed with hold | hfree
      · exact hold.symm.trans hlive
      · exact absurd (mem_barrier.mpr ⟨e, hin⟩) hfree
  · refine ⟨w, ?_, he, hlive⟩
    simp [Supervisor.modifyWatch, hij, hw]

/-- Every move keeps it: a watch comes into force on an endpoint that has none, and is retired only
when it is not in force. -/
theorem Manned.move {s t : Supervisor σ} (h : s.Manned) (m : Move s t) : t.Manned := by
  cases m with
  | subscribe listener => exact ⟨h.once, h.live⟩
  | adopt candidates => exact ⟨h.once, h.live⟩
  | record e score => exact ⟨h.once, h.live⟩
  | forget e => exact ⟨h.once, h.live⟩
  | judge e score => exact ⟨h.once, h.live⟩
  | setRequested due => exact ⟨h.once, h.live⟩
  | setRefreshing underWay => exact ⟨h.once, h.live⟩
  | republish =>
    obtain ⟨feed, outbox, heq⟩ := republish_eq s
    rw [heq]
    exact ⟨h.once, h.live⟩
  | addWatch e => exact h.addWatch e
  | enlist hw hlive hfree => exact h.enlist hw hlive hfree
  | releaseUnchosen chosen => exact h.releaseUnchosen chosen
  | noteChecked => exact ⟨h.once, h.live⟩
  | modifyWatch horigin hretired => exact h.modifyWatch horigin hretired
  | start => exact ⟨h.once, h.live⟩
  | beginClose => exact ⟨List.nodup_nil, fun _ _ hin => by simp [beginClose] at hin⟩
  | finishClose => exact ⟨h.once, h.live⟩

/-- Between two events the watches in force live and are on different endpoints. -/
theorem Run.manned {terms : Terms} {strategy : σ} {events : List Event} {s : Supervisor σ}
    (h : Run (fresh terms strategy) events s) : s.Manned :=
  h.keeps_moves (fun _ _ ht m => ht.move m) (manned_fresh terms strategy)

/-- In the middle of a call, too, the watches in force live and are on different endpoints. -/
theorem Moment.manned {terms : Terms} {strategy : σ} {events : List Event} {s u : Supervisor σ}
    (h : Moment (fresh terms strategy) events s u) : u.Manned :=
  h.keeps_moves (fun _ _ ht m => ht.move m) (manned_fresh terms strategy)

/-! ## The strategy and the candidates -/

section

variable {P : List Endpoint → σ → Prop}
  (hoffer : ∀ old candidates strategy, P old strategy →
    P candidates (Strategy.offer strategy candidates))
  (hjudge : ∀ candidates strategy e score, P candidates strategy →
    P candidates (Strategy.judge strategy e score).1)

include hoffer hjudge

/-- The strategy hears of new candidates when the supervisor adopts them, and changes by reports
else. -/
theorem Move.strategy_keeps {s t : Supervisor σ} (m : Move s t) (h : P s.candidates s.strategy) :
    P t.candidates t.strategy := by
  cases m with
  | adopt candidates => exact hoffer s.candidates candidates s.strategy h
  | judge e score => exact hjudge s.candidates s.strategy e score h
  | republish =>
    obtain ⟨feed, outbox, heq⟩ := republish_eq s
    rw [heq]
    exact h
  | _ => exact h

/-- What offers establish and reports keep holds of the strategy and the candidates between two
events. -/
theorem Run.strategy_keeps {terms : Terms} {strategy : σ} {events : List Event}
    {s : Supervisor σ} (h : Run (fresh terms strategy) events s) (hs : P [] strategy) :
    P s.candidates s.strategy :=
  h.keeps_moves (P := fun t => P t.candidates t.strategy)
    (fun _ _ ht m => m.strategy_keeps hoffer hjudge ht) hs

/-- It holds in the middle of a call, too. -/
theorem Moment.strategy_keeps {terms : Terms} {strategy : σ} {events : List Event}
    {s u : Supervisor σ} (h : Moment (fresh terms strategy) events s u) (hs : P [] strategy) :
    P u.candidates u.strategy :=
  h.keeps_moves (P := fun t => P t.candidates t.strategy)
    (fun _ _ ht m => m.strategy_keeps hoffer hjudge ht) hs

end

/-- What a strategy has heard of the candidates are the supervisor's. -/
theorem Moves.heard {first : σ} {s t : Supervisor σ} (h : Moves s t)
    (hs : Strategy.Heard first s.candidates s.strategy) :
    Strategy.Heard first t.candidates t.strategy :=
  h.keeps (P := fun u => Strategy.Heard first u.candidates u.strategy)
    (fun _ _ hu m => m.strategy_keeps (fun _ candidates _ hp => hp.offer candidates)
      (fun _ _ e score hp => hp.judge e score) hu) hs

/-- The candidates that a strategy was offered last are the supervisor's. -/
theorem Run.heard {terms : Terms} {strategy : σ} {events : List Event} {s : Supervisor σ}
    (h : Run (fresh terms strategy) events s) :
    Strategy.Heard strategy s.candidates s.strategy :=
  h.strategy_keeps (fun _ candidates _ hp => hp.offer candidates)
    (fun _ _ e score hp => hp.judge e score) Strategy.Heard.first

/-- Policies select among the candidates throughout a life. -/
theorem Run.sound {terms : Terms} {policy : Policy} (hunused : policy.Unused)
    {events : List Event} {s : Supervisor Policy} (h : Run (fresh terms policy) events s) :
    s.strategy.Sound s.candidates :=
  h.strategy_keeps (P := Policy.Sound) (fun _ candidates _ hp => hp.offer candidates)
    (fun _ _ e score hp => hp.judge e score) hunused.sound

/-- In the middle of a call, too, policies select among the candidates. -/
theorem Moment.sound {terms : Terms} {policy : Policy} (hunused : policy.Unused)
    {events : List Event} {s u : Supervisor Policy}
    (h : Moment (fresh terms policy) events s u) : u.strategy.Sound u.candidates :=
  h.strategy_keeps (P := Policy.Sound) (fun _ candidates _ hp => hp.offer candidates)
    (fun _ _ e score hp => hp.judge e score) hunused.sound

end HealthWatch.Supervisor
