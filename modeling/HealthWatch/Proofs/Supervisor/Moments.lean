import HealthWatch.Proofs.Supervisor.Life
import Mathlib.Logic.Relation

/-!
# Moments in the middle of a call

What happens at an event is made of `Move`s, single changes of the state (`Step.moves`). So what
every move keeps holds in all states of a life, and also in the middle of a call.

A `Moment` is a state in the middle of a call that can be seen from outside: a score was entered,
or passes are under way and the check of a watch that is being begun has made some of its calls.
-/

set_option autoImplicit false

namespace HealthWatch.Supervisor

variable {σ : Type} [Strategy σ]

/-! ## Watches stay -/

/-- Every watch is still there, on the same endpoint and with the same jobs. -/
def Carried (s t : Supervisor σ) : Prop :=
  ∀ (i : Nat) (w : Watch), s.watches[i]? = some w →
    ∃ v : Watch, t.watches[i]? = some v ∧ v.origin = w.origin ∧ v.roster = w.roster

section

omit [Strategy σ]

variable {test : Watch → Bool}

/-- A test that a new watch fails is passed by the same watches when one is added. -/
theorem any_addWatch (s : Supervisor σ) {e : Endpoint}
    (hnew : test { origin := e, target := e.checkTarget s.terms.scheme s.terms.port } = false)
    (i : Nat) : ((s.addWatch e).watches[i]?).any test = (s.watches[i]?).any test := by
  by_cases hi : i < s.watches.length
  · simp [addWatch, List.getElem?_append_left hi]
  · have hi : s.watches.length ≤ i := Nat.le_of_not_lt hi
    rw [addWatch, List.getElem?_append_right hi, List.getElem?_eq_none hi]
    cases i - s.watches.length with
    | zero => exact hnew
    | succ n => rfl

/-- A test that does not tell what is changed in a watch is passed by the same watches. -/
theorem any_modifyWatch {s : Supervisor σ} {i : Nat} {f : Watch → Watch}
    (hf : ∀ w, s.watches[i]? = some w → test (f w) = test w) (j : Nat) :
    ((s.modifyWatch i f).watches[j]?).any test = (s.watches[j]?).any test := by
  by_cases hij : i = j
  · subst hij
    cases hw : s.watches[i]? with
    | none => simp [modifyWatch, hw]
    | some w => simp [modifyWatch, hw, hf w hw]
  · simp [modifyWatch, hij]

end

omit [Strategy σ] in
/-- Watches that nothing happens to are carried along. -/
theorem Carried.refl (s : Supervisor σ) : Carried s s :=
  fun _ w h => ⟨w, h, rfl, rfl⟩

omit [Strategy σ] in
/-- A further watch leaves those that are there. -/
theorem Carried.addWatch {s t : Supervisor σ} (h : Carried s t) (e : Endpoint) :
    Carried s (t.addWatch e) := by
  intro i w hw
  obtain ⟨v, hv, hkept⟩ := h i w hw
  refine ⟨v, ?_, hkept⟩
  obtain ⟨hlt, -⟩ := List.getElem?_eq_some_iff.mp hv
  rw [Supervisor.addWatch, List.getElem?_append_left hlt]
  exact hv

omit [Strategy σ] in
/-- That a watch has reported changes neither its endpoint nor its jobs. -/
theorem Carried.markReported {s t : Supervisor σ} (h : Carried s t) (i : Nat) :
    Carried s (t.modifyWatch i Watch.markReported) := by
  intro j w hw
  obtain ⟨v, hv, horigin, hroster⟩ := h j w hw
  by_cases hij : i = j
  · refine ⟨v.markReported, ?_, horigin, hroster⟩
    simp [modifyWatch, hij, hv]
  · exact ⟨v, by simp [modifyWatch, hij, hv], horigin, hroster⟩

/-- A score leaves every watch on its endpoint and with its jobs. -/
theorem keptByReports_carried (s : Supervisor σ) : KeptByReports (Carried s) where
  enterScore t w score final h := by
    obtain ⟨book, feed, outbox, heq⟩ := enterScore_eq t w score final
    rw [heq]
    exact h
  judge _ _ _ h := h
  markReported _ i h := h.markReported i
  setRequested _ _ h := h

/-- New candidates leave all watches. -/
theorem Carried.takeIn {s t : Supervisor σ} (h : Carried s t) (candidates : List Endpoint) :
    Carried s (t.takeIn candidates) := by
  have hadopted : Carried s ((t.adopt candidates).setRequested true) := h
  exact republishIf_keeps (fun _ _ _ hu => hu) hadopted _

/-- A call within a pass leaves every watch on its endpoint and with its jobs. -/
theorem Carried.interject {s t : Supervisor σ} (h : Carried s t) (call : Call) :
    Carried s (t.interject call) :=
  (keptByReports_carried s).interject (fun _ candidates hu => hu.takeIn candidates) h call

/-- A pass adds watches and leaves those that are there. -/
theorem keptByPasses_carried (s : Supervisor σ) : KeptByPasses (Carried s) where
  setRequested _ _ h := h
  setRefreshing _ _ h := h
  beginOnce _ e _ h :=
    beginOnce_keeps (P := Carried s) (fun _ call hu => hu.interject call)
      (fun _ f hu => hu.addWatch f) (fun _ _ _ hu => hu) h e
  releaseUnchosen _ _ h := h
  noteChecked _ h := h

/-- A score with all its passes leaves every watch on its endpoint and with its jobs. -/
theorem carried_deliver {s t : Supervisor σ} (hrest : s.refreshing = false) {i : Nat}
    {score : Float} {final : Bool} (h : s.deliver i score final = some t) : Carried s t :=
  (keptByPasses_carried s).deliver (keptByReports_carried s) hrest h (Carried.refl s)

/-- After the calls made while a watch is being begun, the watch is where it was put. -/
theorem begun_watch (s : Supervisor σ) (e : Endpoint) (calls : List Call) :
    ∃ v : Watch, (calls.foldl interject (s.addWatch e)).watches[s.watches.length]? = some v ∧
      v.origin = e ∧ v.retired = false := by
  have hcarried : Carried (s.addWatch e) (calls.foldl interject (s.addWatch e)) :=
    List.foldlRecOn calls interject (Carried.refl _) fun _ hu call _ => hu.interject call
  have hnew : (s.addWatch e).watches[s.watches.length]? =
      some { origin := e, target := e.checkTarget s.terms.scheme s.terms.port } := by
    simp [addWatch]
  obtain ⟨v, hv, horigin, hroster⟩ := hcarried _ _ hnew
  exact ⟨v, hv, horigin, by rw [Watch.retired, hroster]⟩

/-- The calls made while passes are under way leave the watches in force, begin none and let none
go. -/
theorem unmoved_foldl_interject (s : Supervisor σ) (calls : List Call) :
    Unmoved s (calls.foldl interject s) := by
  refine List.foldlRecOn calls interject (Unmoved.refl s) fun t ht call _ => ?_
  refine (keptByReports_unmoved s).interject (fun u candidates h => ?_) ht call
  have hasked : Unmoved u ((u.adopt candidates).setRequested true) := ⟨rfl, rfl, rfl⟩
  exact h.trans (hasked.trans (unmoved_republishIf _ _))

/-- The calls of a check bring no watch into force and take none out. -/
theorem current_foldl_interject (s : Supervisor σ) (calls : List Call) :
    (calls.foldl interject s).current = s.current :=
  (unmoved_foldl_interject s calls).current

/-! ## Events are made of moves -/

/-- One change of the state. A watch comes into force on an endpoint that has none, and it is
retired only when it is not in force. -/
inductive Move : Supervisor σ → Supervisor σ → Prop where
  | subscribe (s : Supervisor σ) (listener : Listener) : Move s (s.subscribe listener)
  | adopt (s : Supervisor σ) (candidates : List Endpoint) : Move s (s.adopt candidates)
  | record (s : Supervisor σ) (e : Endpoint) (score : Float) : Move s (s.record e score)
  | forget (s : Supervisor σ) (e : Endpoint) : Move s (s.forget e)
  | judge (s : Supervisor σ) (e : Endpoint) (score : Float) :
      Move s (s.setStrategy (Strategy.judge s.strategy e score).1)
  | setRequested (s : Supervisor σ) (due : Bool) : Move s (s.setRequested due)
  | setRefreshing (s : Supervisor σ) (underWay : Bool) : Move s (s.setRefreshing underWay)
  | republish (s : Supervisor σ) : Move s s.republish
  | addWatch (s : Supervisor σ) (e : Endpoint) : Move s (s.addWatch e)
  | enlist (s : Supervisor σ) {i : Nat} {w : Watch} (hw : s.watches[i]? = some w)
      (hlive : w.retired = false) (hfree : s.watching w.origin = false) :
      Move s (s.enlist w.origin i)
  | releaseUnchosen (s : Supervisor σ) (chosen : List Endpoint) : Move s (s.releaseUnchosen chosen)
  | noteChecked (s : Supervisor σ) : Move s s.noteChecked
  | modifyWatch (s : Supervisor σ) {i : Nat} {f : Watch → Watch}
      (horigin : ∀ w, s.watches[i]? = some w → (f w).origin = w.origin)
      (hretired : ∀ w, s.watches[i]? = some w → (f w).retired = true →
        w.retired = true ∨ i ∉ s.barrier) : Move s (s.modifyWatch i f)
  | start (s : Supervisor σ) : Move s { s with started := true }
  | beginClose (s : Supervisor σ) : Move s s.beginClose.2
  | finishClose (s : Supervisor σ) : Move s s.finishClose

/-- Any number of changes of the state. -/
abbrev Moves (s t : Supervisor σ) : Prop :=
  Relation.ReflTransGen Move s t

/-- A move keeps a property, so any number of moves does. -/
theorem Moves.keeps {P : Supervisor σ → Prop} (hmove : ∀ t u, P t → Move t u → P u)
    {s t : Supervisor σ} (h : Moves s t) (hs : P s) : P t := by
  induction h with
  | refl => exact hs
  | tail _ m ih => exact hmove _ _ ih m

/-- To mark a watch as having reported is a move. -/
theorem move_markReported (s : Supervisor σ) (i : Nat) :
    Move s (s.modifyWatch i Watch.markReported) :=
  Move.modifyWatch s (fun _ _ => rfl) (fun _ _ h => Or.inl h)

/-- A publication is a move, or nothing. -/
theorem moves_republishIf {s t : Supervisor σ} (h : Moves s t) (reason : Bool) :
    Moves s (t.republishIf reason) := by
  cases reason with
  | false => exact h
  | true => exact h.tail (Move.republish t)

/-- Entering a score is made of moves. -/
theorem moves_enterScore {s t : Supervisor σ} (h : Moves s t) (w : Watch) (score : Float)
    (final : Bool) : Moves s (t.enterScore w score final) := by
  unfold enterScore
  split
  · exact h
  · split
    · exact moves_republishIf (h.tail (Move.forget t w.origin)) _
    · exact moves_republishIf (h.tail (Move.record t w.origin score)) _

/-- Taking new candidates within a pass is made of moves. -/
theorem moves_takeIn {s t : Supervisor σ} (h : Moves s t) (candidates : List Endpoint) :
    Moves s (t.takeIn candidates) :=
  moves_republishIf ((h.tail (Move.adopt t candidates)).tail (Move.setRequested _ true)) _

/-- Taking in a score is made of moves. -/
theorem keptByReports_moves (s : Supervisor σ) : KeptByReports (Moves s) where
  enterScore _ w score final h := moves_enterScore h w score final
  judge t e score h := h.tail (Move.judge t e score)
  markReported t i h := h.tail (move_markReported t i)
  setRequested t due h := h.tail (Move.setRequested t due)

/-- Beginning a watch is made of moves, the calls of its check included. -/
theorem moves_beginOnce {s t : Supervisor σ} (h : Moves s t) {e : Endpoint}
    (hfree : t.watching e = false) : Moves s (t.beginOnce e) := by
  have hbegun (calls : List Call) : Moves s (calls.foldl interject (t.addWatch e)) :=
    List.foldlRecOn calls interject (h.tail (Move.addWatch t e)) fun _ hu call _ =>
      (keptByReports_moves s).interject (fun _ candidates hv => moves_takeIn hv candidates) hu call
  have hstill (calls : List Call) :
      (calls.foldl interject (t.addWatch e)).watching e = false := by
    rw [watching, inForce, current_foldl_interject]
    exact hfree
  obtain ⟨v, hv, rfl, hlive⟩ :=
    begun_watch t e (t.terms.greeting (t.watches.map Watch.origin) e)
  exact (hbegun _).tail (Move.enlist _ hv hlive (hstill _))

/-- A pass is made of moves. -/
theorem keptByPasses_moves (s : Supervisor σ) : KeptByPasses (Moves s) where
  setRequested t due h := h.tail (Move.setRequested t due)
  setRefreshing t underWay h := h.tail (Move.setRefreshing t underWay)
  beginOnce _ _ hfree h := moves_beginOnce h hfree
  releaseUnchosen t chosen h := h.tail (Move.releaseUnchosen t chosen)
  noteChecked t h := h.tail (Move.noteChecked t)

/-- What happens at an event is made of moves. -/
theorem Step.moves {s t : Supervisor σ} {event : Event} (k : Step s event t)
    (hrest : s.refreshing = false) : Moves s t := by
  cases k with
  | listen listener => exact Relation.ReflTransGen.single (Move.subscribe s listener)
  | offer h =>
    refine (keptByPasses_moves s).offer (fun _ reason hu => moves_republishIf hu reason) hrest h ?_
    exact Relation.ReflTransGen.single (Move.adopt s _)
  | report h =>
    exact (keptByPasses_moves s).deliver (keptByReports_moves s) hrest h Relation.ReflTransGen.refl
  | @retire i _ hfree h =>
    obtain rfl | ⟨w, -, -, h⟩ := retire_eq_some h
    · exact Relation.ReflTransGen.refl
    · have hretire : Move s (s.modifyWatch i Watch.retire) :=
        Move.modifyWatch s (fun _ _ => rfl) (fun _ _ _ => Or.inr hfree)
      refine (keptByPasses_moves s).deliver (keptByReports_moves s) ?_ h ?_
      · exact hrest
      · exact Relation.ReflTransGen.single hretire
  | start _ => exact (Relation.ReflTransGen.single (Move.start s)).tail (Move.republish _)
  | beginClose _ => exact Relation.ReflTransGen.single (Move.beginClose s)
  | finishClose _ => exact Relation.ReflTransGen.single (Move.finishClose s)
  | enterJob h =>
    obtain ⟨f, rfl, horigin, hretired, -⟩ := eq_modifyWatch_of_enterJob h
    refine Relation.ReflTransGen.single (Move.modifyWatch s horigin ?_)
    intro w hw hclosed
    exact Or.inl ((hretired w hw).symm.trans hclosed)
  | releaseJob i id =>
    exact Relation.ReflTransGen.single
      (Move.modifyWatch s (fun _ _ => rfl) (fun _ _ h => Or.inl h))

/-- What every move keeps holds in all states of a life. -/
theorem Run.keeps_moves {P : Supervisor σ → Prop} (hmove : ∀ t u, P t → Move t u → P u)
    {terms : Terms} {strategy : σ} {events : List Event} {s : Supervisor σ}
    (h : Run (fresh terms strategy) events s) (hs : P (fresh terms strategy)) : P s :=
  (h.keeps_at_rest (P := P) (fun _ _ _ ht hrest k => Moves.keeps hmove (k.moves hrest) ht) hs).1

/-- No move drops the supervisor. -/
theorem Move.abandoned {s t : Supervisor σ} (m : Move s t) (h : s.abandoned = false) :
    t.abandoned = false := by
  cases m with
  | republish => exact (Steady.republish s).abandoned.trans h
  | _ => exact h

/-- No event of a life drops the supervisor. -/
theorem Run.abandoned {terms : Terms} {strategy : σ} {events : List Event} {s : Supervisor σ}
    (h : Run (fresh terms strategy) events s) : s.abandoned = false :=
  h.keeps_moves (P := fun t => t.abandoned = false) (fun _ _ ht m => m.abandoned ht) rfl

/-- No move changes the terms. -/
theorem Move.terms {s t : Supervisor σ} (m : Move s t) : t.terms = s.terms := by
  cases m with
  | republish => exact (Steady.republish s).terms
  | _ => rfl

/-- The terms are those that a life began with. -/
theorem Run.terms {terms : Terms} {strategy : σ} {events : List Event} {s : Supervisor σ}
    (h : Run (fresh terms strategy) events s) : s.terms = terms :=
  h.keeps_moves (P := fun t => t.terms = terms) (fun _ _ ht m => m.terms.trans ht) rfl

/-! ## In the middle of a call -/

/-- The states that the checks of new watches bring about while passes are under way, after each of
their calls. -/
inductive Within : Supervisor σ → Supervisor σ → Prop where
  /-- The first pass has come to an endpoint whose check has made some of its calls. -/
  | call {s t : Supervisor σ} {before after : List Endpoint} {e : Endpoint} {done rest : List Call}
      (hdue : s.requested = true) (hopen : s.closing = false)
      (hchosen : Strategy.selected s.strategy = before ++ e :: after)
      (ht : t = before.foldl ensureWatch
        ((s.setRequested false).releaseUnchosen (Strategy.selected s.strategy)))
      (hfree : t.watching e = false)
      (hcalls : t.terms.greeting (t.watches.map Watch.origin) e = done ++ rest) :
      Within s (done.foldl interject (t.addWatch e))
  /-- The first pass is over. -/
  | next {s u : Supervisor σ} (hdue : s.requested = true) (hopen : s.closing = false)
      (h : Within (s.setRequested false).passOnce u) : Within s u

/-- The states in the middle of a request made while no pass is under way. -/
def WithinRequest (s u : Supervisor σ) : Prop :=
  s.closing = false ∧ Within ((s.setRequested true).setRefreshing true) u

/-- The states in the middle of taking in a score of a watch. -/
inductive WithinScore (s : Supervisor σ) (w : Watch) (score : Float) (final : Bool) :
    Supervisor σ → Prop where
  | entered : WithinScore s w score final (s.enterScore w score final)
  | passes {t u : Supervisor σ} (ht : t = s.enterScore w score final)
      (hmoved : (Strategy.judge t.strategy w.origin score).2 = true)
      (h : WithinRequest (t.setStrategy (Strategy.judge t.strategy w.origin score).1) u) :
      WithinScore s w score final u

/-- The states in the middle of an event. -/
inductive WithinEvent (s : Supervisor σ) : Event → Supervisor σ → Prop where
  | offer {candidates : List Endpoint} {u : Supervisor σ}
      (h : WithinRequest (s.adopt candidates) u) : WithinEvent s (.offer candidates) u
  | report {i : Nat} {score : Float} {w : Watch} {u : Supervisor σ}
      (hw : s.watches[i]? = some w) (h : WithinScore s w score false u) :
      WithinEvent s (.report i score) u
  | retire {i : Nat} {w : Watch} {u : Supervisor σ} (hfree : i ∉ s.barrier)
      (hw : s.watches[i]? = some w) (hlive : w.retired = false)
      (h : WithinScore (s.modifyWatch i Watch.retire) w.retire 0.0 true u) :
      WithinEvent s (.retire i) u

/-- A state in the middle of one of the events of a run, or right after it. -/
def Moment (s : Supervisor σ) (events : List Event) (t u : Supervisor σ) : Prop :=
  ∃ earlier event later before after, events = earlier ++ event :: later ∧
    Run s earlier before ∧ Step before event after ∧ Run after later t ∧
      (WithinEvent before event u ∨ u = after)

/-- A state in the middle of passes is reached by moves. -/
theorem Within.moves {s u : Supervisor σ} (h : Within s u) : Moves s u := by
  induction h with
  | @call s t before after e done rest _ _ _ ht _ _ =>
    have hcleared : Moves s (s.setRequested false) :=
      Relation.ReflTransGen.single (Move.setRequested s false)
    have hbefore : Moves s t := by
      rw [ht]
      exact (keptByPasses_moves s).ensureWatches (hcleared.tail (Move.releaseUnchosen _ _)) before
    refine List.foldlRecOn done interject (hbefore.tail (Move.addWatch t e)) fun _ hv call _ => ?_
    exact (keptByReports_moves s).interject (fun _ candidates hx => moves_takeIn hx candidates) hv
      call
  | @next s u _ _ _ ih =>
    have hpass : Moves s (s.setRequested false).passOnce :=
      (keptByPasses_moves s).passOnce (Relation.ReflTransGen.single (Move.setRequested s false))
    exact hpass.trans ih

/-- A state in the middle of a request is reached by moves. -/
theorem WithinRequest.moves {s u : Supervisor σ} (h : WithinRequest s u) : Moves s u :=
  ((Relation.ReflTransGen.single (Move.setRequested s true)).tail
    (Move.setRefreshing _ true)).trans h.2.moves

/-- A state in the middle of taking in a score is reached by moves. -/
theorem WithinScore.moves {s u : Supervisor σ} {w : Watch} {score : Float} {final : Bool}
    (h : WithinScore s w score final u) : Moves s u := by
  have hentered : Moves s (s.enterScore w score final) :=
    moves_enterScore Relation.ReflTransGen.refl w score final
  cases h with
  | entered => exact hentered
  | passes ht _ h =>
    subst ht
    exact (hentered.tail (Move.judge _ _ score)).trans h.moves

/-- A state in the middle of an event is reached by moves. -/
theorem WithinEvent.moves {s u : Supervisor σ} {event : Event} (h : WithinEvent s event u) :
    Moves s u := by
  cases h with
  | offer h => exact (Relation.ReflTransGen.single (Move.adopt s _)).trans h.moves
  | report _ h => exact h.moves
  | retire hfree _ _ h =>
    have hretire : Move s (s.modifyWatch _ Watch.retire) :=
      Move.modifyWatch s (fun _ _ => rfl) (fun _ _ _ => Or.inr hfree)
    exact (Relation.ReflTransGen.single hretire).trans h.moves

/-- What every move keeps holds in the middle of a call too. -/
theorem Moment.keeps_moves {P : Supervisor σ → Prop} (hmove : ∀ t u, P t → Move t u → P u)
    {terms : Terms} {strategy : σ} {events : List Event} {s u : Supervisor σ}
    (h : Moment (fresh terms strategy) events s u) (hs : P (fresh terms strategy)) : P u := by
  obtain ⟨earlier, event, later, before, after, -, hearlier, hstep, -, hu | rfl⟩ := h
  · exact Moves.keeps hmove hu.moves (hearlier.keeps_moves hmove hs)
  · exact Run.keeps_moves hmove (hearlier.snoc hstep) hs

/-- A moment of a run stays one when the run goes on. -/
theorem Moment.snoc {s t u v : Supervisor σ} {events : List Event} {event : Event}
    (h : Moment s events t u) (k : Step t event v) : Moment s (events ++ [event]) v u := by
  obtain ⟨earlier, first, later, before, after, rfl, hearlier, hstep, hlater, hu⟩ := h
  exact ⟨earlier, first, later ++ [event], before, after, by simp, hearlier, hstep, hlater.snoc k,
    hu⟩

end HealthWatch.Supervisor
