import HealthWatch.Proofs.Supervisor.Moments

/-!
# What one listener hears

A listener hears the published lists that it is among the audience of. A listener that a supervisor
has (`Heeds`) hears of every change of the published endpoints: they are the last list that it
heard, and stay as they are as long as it hears none (`Relays`). A closed feed never changes, so it
does not matter that it has no listeners any more.
-/

set_option autoImplicit false

namespace HealthWatch

/-- The list that an effect tells a listener, if it tells it one. -/
def Effect.told? (listener : Listener) : Effect → Option (List Endpoint)
  | .published endpoints audience => if listener ∈ audience then some endpoints else none
  | _ => none

namespace Supervisor

variable {σ : Type}

/-- The lists that a listener heard, in order; the outbox is taken to hold everything that was ever
left there. -/
def heardBy (s : Supervisor σ) (listener : Listener) : List (List Endpoint) :=
  s.outbox.filterMap (Effect.told? listener)

/-- What a listener has heard on the way from one state to another. -/
def news (s t : Supervisor σ) (listener : Listener) : List (List Endpoint) :=
  (t.heardBy listener).drop (s.heardBy listener).length

/-- The listener hears of every publication, or there will be none. -/
def Heeds (listener : Listener) (s : Supervisor σ) : Prop :=
  s.published.closed = true ∨ listener ∈ s.published.listeners

/-- From one state to another the listener heard these lists, and the published endpoints are the
last of them. -/
structure Relays (listener : Listener) (lists : List (List Endpoint)) (s t : Supervisor σ) :
    Prop where
  heeds : t.Heeds listener
  heard : t.heardBy listener = s.heardBy listener ++ lists
  current : t.endpoints = lists.getLastD s.endpoints

namespace Relays

variable {listener : Listener}

/-- Nothing is heard where neither the feed nor the outbox is touched. -/
theorem silent {s t : Supervisor σ} (hs : s.Heeds listener) (hfeed : t.published = s.published)
    (houtbox : t.outbox = s.outbox) : Relays listener [] s t := by
  refine ⟨?_, ?_, congrArg Feed.current hfeed⟩
  · rw [Heeds, hfeed]
    exact hs
  · rw [heardBy, houtbox, List.append_nil]
    rfl

/-- What is heard on the way to one state and from there to another is heard on the whole way. -/
theorem trans {first second : List (List Endpoint)} {s t u : Supervisor σ}
    (h : Relays listener first s t) (k : Relays listener second t u) :
    Relays listener (first ++ second) s u := by
  refine ⟨k.heeds, ?_, ?_⟩
  · rw [k.heard, h.heard, List.append_assoc]
  · rw [k.current, h.current]
    cases second <;> simp [List.getLastD_eq_getLast?]

/-- The news of a listener are the lists that it heard. -/
theorem news_eq {lists : List (List Endpoint)} {s t : Supervisor σ}
    (h : Relays listener lists s t) : s.news t listener = lists := by
  simp [news, h.heard]

/-- As long as the feed is open, the listener listens on. -/
theorem listens {lists : List (List Endpoint)} {s t : Supervisor σ}
    (h : Relays listener lists s t) (hopen : t.published.closed = false) :
    listener ∈ t.published.listeners := by
  rcases h.heeds with hclosed | hlistens
  · cases hopen.symm.trans hclosed
  · exact hlistens

end Relays

/-! ## Publications -/

/-- A listener hears of a publication that the feed accepts. -/
theorem heardBy_republish {listener : Listener} {s : Supervisor σ}
    (hlistens : listener ∈ s.published.listeners)
    (haccepts : s.published.accepts s.healthyCandidates = true) :
    s.republish.heardBy listener = s.heardBy listener ++ [s.healthyCandidates] := by
  simp [republish, heardBy, Effect.told?, Feed.audience, haccepts, hlistens]

/-- A publication is heard, unless the list is published already or the feed is closed. -/
theorem relays_republish {listener : Listener} {s : Supervisor σ} (hs : s.Heeds listener) :
    ∃ lists, Relays listener lists s s.republish := by
  by_cases haccepts : s.published.accepts s.healthyCandidates = true
  · have hopen : s.published.closed = false := by
      have hboth := haccepts
      simp only [Feed.accepts, Bool.and_eq_true, Bool.not_eq_true'] at hboth
      exact hboth.1
    have hlistens : listener ∈ s.published.listeners := by
      rcases hs with hclosed | hlistens
      · cases hopen.symm.trans hclosed
      · exact hlistens
    refine ⟨[s.healthyCandidates], ?_, heardBy_republish hlistens haccepts, ?_⟩
    · exact Or.inr (by simp [republish, Feed.announce, haccepts, hlistens])
    · simp [endpoints, republish, Feed.announce, haccepts]
  · have hsame : s.republish = s := by simp [republish, haccepts]
    rw [hsame]
    exact ⟨[], Relays.silent hs rfl rfl⟩

/-! ## Watches that begin or are let go -/

/-- Nothing is heard of a watch that comes into force. -/
theorem heardBy_enlist (s : Supervisor σ) (e : Endpoint) (i : Nat) (listener : Listener) :
    (s.enlist e i).heardBy listener = s.heardBy listener := by
  simp [heardBy, enlist, Effect.told?]

/-- Nothing is heard of watches that are let go. -/
theorem heardBy_releaseUnchosen (s : Supervisor σ) (chosen : List Endpoint)
    (listener : Listener) : (s.releaseUnchosen chosen).heardBy listener = s.heardBy listener := by
  simp [heardBy, releaseUnchosen, Effect.told?]

variable [Strategy σ]

/-- Only publications are heard, and only they change what is published. -/
theorem Move.relays {listener : Listener} {s t : Supervisor σ} (m : Move s t)
    (hs : s.Heeds listener) : ∃ lists, Relays listener lists s t := by
  cases m with
  | subscribe other =>
    refine ⟨[], ?_, by simp [heardBy, Supervisor.subscribe], rfl⟩
    rcases hs with hclosed | hlistens
    · exact Or.inl hclosed
    · exact Or.inr (List.mem_append_left _ hlistens)
  | republish => exact relays_republish hs
  | releaseUnchosen chosen =>
    exact ⟨[], hs, by rw [heardBy_releaseUnchosen, List.append_nil], rfl⟩
  | enlist => exact ⟨[], hs, by rw [heardBy_enlist, List.append_nil], rfl⟩
  | finishClose => exact ⟨[], Or.inl rfl, by simp [heardBy, Supervisor.finishClose], rfl⟩
  | _ => exact ⟨[], Relays.silent hs rfl rfl⟩

/-- What a listener hears in the course of moves brings it up to date. -/
theorem Moves.relays {listener : Listener} {s t : Supervisor σ} (h : Moves s t)
    (hs : s.Heeds listener) : ∃ lists, Relays listener lists s t := by
  induction h with
  | refl => exact ⟨[], Relays.silent hs rfl rfl⟩
  | tail _ m ih =>
    obtain ⟨first, hfirst⟩ := ih
    obtain ⟨second, hsecond⟩ := m.relays hfirst.heeds
    exact ⟨first ++ second, hfirst.trans hsecond⟩

/-- What a listener hears at an event brings it up to date. -/
theorem Step.relays {listener : Listener} {s t : Supervisor σ} {event : Event}
    (k : Step s event t) (hrest : s.refreshing = false) (hs : s.Heeds listener) :
    ∃ lists, Relays listener lists s t :=
  (k.moves hrest).relays hs

end Supervisor

end HealthWatch
