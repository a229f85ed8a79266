import HealthWatch.Proofs.Supervisor.Candidates
import HealthWatch.Proofs.Supervisor.Hearing
import HealthWatch.Proofs.Supervisor.Publication

/-!
# Chains of supervisors

A supervisor can be the source of another one, so supervisors can be built each on the one before,
with a feed as the source of the first. What a supervisor publishes the next one is offered, in the
order in which it hears it. The next one does nothing to its source, so it makes no difference that
here it hears of an act when the act is over.

The invariant is `Linked`: every supervisor of the chain listens to its source and has the source's
endpoints for candidates. It is kept by whatever is done anywhere in the chain, since a listener's
news bring it up to date with what it listens to (`Step.linked`).
-/

set_option autoImplicit false

namespace HealthWatch

open Supervisor (Event Quiet)

/-- Supervisors, each built on the one before, the first on a feed. -/
inductive Chain (σ : Type) where
  | source (feed : Feed)
  /-- A supervisor with the number under which it listens to the chain that it is built on. -/
  | extend (inner : Chain σ) (ours : Listener) (s : Supervisor σ)

/-- An event that neither brings candidates nor has to do with closing. -/
def Supervisor.Event.ordinary : Event → Bool
  | .offer _ | .beginClose | .finishClose => false
  | _ => true

namespace Chain

variable {σ : Type}

/-- The feed at the outer end of the chain. -/
def feed : Chain σ → Feed
  | source f => f
  | extend _ _ s => s.published

/-- The endpoints at the outer end of the chain. -/
def endpoints (c : Chain σ) : List Endpoint :=
  c.feed.current

/-- The endpoints of the feed that the chain begins with. -/
def base : Chain σ → List Endpoint
  | source f => f.current
  | extend inner _ _ => inner.base

/-- Have all supervisors of the chain started? -/
def started : Chain σ → Bool
  | source _ => true
  | extend inner _ s => s.started && inner.started

/-- Is the endpoint healthy for every supervisor of the chain? -/
def healthy : Chain σ → Endpoint → Bool
  | source _, _ => true
  | extend inner _ s, e => s.health.isHealthy e && inner.healthy e

/-- Every supervisor of the chain has the endpoints of its source for candidates. -/
def Agrees : Chain σ → Prop
  | source _ => True
  | extend inner _ s => s.candidates = inner.endpoints ∧ inner.Agrees

/-- Adds a listener at the outer end of the chain. -/
def subscribe : Chain σ → Listener → Chain σ
  | source f, listener => source (f.subscribe listener)
  | extend inner ours s, listener => extend inner ours (s.subscribe listener)

/-! ## What is done in a chain -/

/-- Something that is done in a chain. -/
inductive Deed where
  /-- The feed is given a new list. -/
  | set (list : List Endpoint)
  /-- Something happens to the outermost supervisor. -/
  | event (event : Event)
  /-- Something is done in the chain that the outermost supervisor is built on. -/
  | inner (deed : Deed)

/-- Something that is done in a chain or with it. -/
inductive Act (σ : Type) where
  | deed (deed : Deed)
  /-- A supervisor is built on the chain; `ears` are the listeners that it is given beforehand. -/
  | build (terms : Terms) (strategy : σ) (ours : Listener) (ears : List Listener)

variable [Strategy σ]

/-- A deed, the chains before and after it, and what a listener to the outer end is told: a
supervisor is offered what it hears of its source, in order. -/
inductive Step : Chain σ → Deed → (Listener → List (List Endpoint)) → Chain σ → Prop where
  | set (f : Feed) (list : List Endpoint) :
      Step (source f) (.set list)
        (fun listener => if listener ∈ f.audience list then [list] else [])
        (source (f.announce list))
  | event {inner : Chain σ} {ours : Listener} {s t : Supervisor σ} {event : Event}
      (hordinary : event.ordinary = true) (k : Supervisor.Step s event t) :
      Step (extend inner ours s) (.event event) (s.news t) (extend inner ours t)
  | inner {c d : Chain σ} {ours : Listener} {s t : Supervisor σ} {deed : Deed}
      {told : Listener → List (List Endpoint)} (h : Step c deed told d)
      (hears : (told ours).foldlM Supervisor.offer s = some t) :
      Step (extend c ours s) (.inner deed) (s.news t) (extend d ours t)

/-- An act and the chains before and after it. A supervisor gets all its candidates from its source,
and it listens before it asks for the first ones. -/
inductive Change (c : Chain σ) : Act σ → Chain σ → Prop where
  | deed {deed : Deed} {told : Listener → List (List Endpoint)} {d : Chain σ}
      (k : Step c deed told d) : Change c (.deed deed) d
  | build {terms : Terms} {strategy : σ} {ours : Listener} {ears : List Listener}
      {s : Supervisor σ} (hquiet : Quiet terms)
      (hfirst : (ears.foldl Supervisor.subscribe (Supervisor.fresh terms strategy)).offer
        c.endpoints = some s) :
      Change c (.build terms strategy ours ears) (extend (c.subscribe ours) ours s)

/-- A sequence of acts, the latest last, from one chain to another. -/
abbrev Run (c : Chain σ) : List (Act σ) → Chain σ → Prop :=
  HealthWatch.Run Change c

/-! ## A supervisor on its source -/

/-- A supervisor between two events whose source has these endpoints. -/
structure Joined (list : List Endpoint) (s : Supervisor σ) : Prop where
  candidates : s.candidates = list
  upToDate : s.UpToDate
  rest : s.refreshing = false
  opened : s.published.closed = false
  quiet : Quiet s.terms

/-- An ordinary event leaves a supervisor joined to its source. -/
theorem Joined.event {list : List Endpoint} {s t : Supervisor σ} {event : Event}
    (h : Joined list s) (hordinary : event.ordinary = true) (k : Supervisor.Step s event t) :
    Joined list t := by
  have hother (candidates : List Endpoint) : event ≠ .offer candidates := by
    rintro rfl
    cases hordinary
  obtain ⟨hterms, hcandidates⟩ := k.candidates h.quiet h.rest hother
  refine ⟨hcandidates.trans h.candidates, h.upToDate.step h.rest k, k.refreshing h.rest, ?_, ?_⟩
  · rcases k.steady_cases h.rest with hsteady | ⟨-, rfl⟩ | ⟨rfl, -, -⟩ | ⟨rfl, -, -⟩
    · exact hsteady.feedClosed.trans h.opened
    · exact (Supervisor.Steady.republish _).feedClosed.trans h.opened
    · cases hordinary
    · cases hordinary
  · rw [hterms]
    exact h.quiet

/-- A supervisor that is offered a list is joined to a source with that list. -/
theorem Joined.offer {old list : List Endpoint} {s t : Supervisor σ} (h : Joined old s)
    (hoffer : s.offer list = some t) : Joined list t := by
  obtain ⟨hterms, hcandidates, hrest⟩ := Supervisor.candidates_of_offer h.quiet h.rest hoffer
  have hstep := Supervisor.Step.offer hoffer
  refine ⟨hcandidates, h.upToDate.step h.rest hstep, hrest, ?_, ?_⟩
  · rcases hstep.steady_cases h.rest with hsteady | ⟨hno, -⟩ | ⟨hno, -⟩ | ⟨hno, -⟩
    · exact hsteady.feedClosed.trans h.opened
    all_goals cases hno
  · rw [hterms]
    exact h.quiet

/-- A supervisor that is offered lists one after the other has the last of them, and its own
listeners hear what comes of them. -/
theorem Joined.offers {lists : List (List Endpoint)} {list : List Endpoint} {s t : Supervisor σ}
    (h : Joined list s) (hoffers : lists.foldlM Supervisor.offer s = some t) :
    Joined (lists.getLastD list) t ∧ ∀ listener ∈ s.published.listeners,
      ∃ heard, Supervisor.Relays listener heard s t := by
  induction lists generalizing s list with
  | nil =>
    cases hoffers
    exact ⟨h, fun _ hl => ⟨[], Supervisor.Relays.silent (Or.inr hl) rfl rfl⟩⟩
  | cons first rest ih =>
    rw [List.foldlM_cons] at hoffers
    obtain ⟨u, hu, hoffers⟩ := Option.bind_eq_some_iff.mp hoffers
    obtain ⟨hjoined, hheard⟩ := ih (h.offer hu) hoffers
    refine ⟨by rwa [List.getLastD_cons], ?_⟩
    intro listener hl
    obtain ⟨heard, hfirst⟩ := (Supervisor.Step.offer hu).relays h.rest (Or.inr hl)
    obtain ⟨later, hrest⟩ := hheard listener (hfirst.listens (h.offer hu).opened)
    exact ⟨heard ++ later, hfirst.trans hrest⟩

omit [Strategy σ] in
/-- Listeners that are added one after the other are the last ones, in that order. -/
theorem foldl_subscribe (ears : List Listener) (s : Supervisor σ) :
    ears.foldl Supervisor.subscribe s =
      { s with published := { s.published with listeners := s.published.listeners ++ ears } } := by
  induction ears generalizing s with
  | nil => simp
  | cons ear ears ih =>
    rw [List.foldl_cons, ih]
    simp [Supervisor.subscribe, Feed.subscribe]

omit [Strategy σ] in
/-- A fresh supervisor with listeners is joined to a source that has no endpoints. -/
theorem joined_fresh {terms : Terms} (hquiet : Quiet terms) (strategy : σ)
    (ears : List Listener) :
    Joined [] (ears.foldl Supervisor.subscribe (Supervisor.fresh terms strategy)) := by
  rw [foldl_subscribe]
  exact ⟨rfl, nofun, rfl, rfl, hquiet⟩

/-! ## The whole chain -/

/-- Every supervisor of the chain listens to its source and has its endpoints. -/
def Linked : Chain σ → Prop
  | source f => f.closed = false
  | extend inner ours s =>
    inner.Linked ∧ ours ∈ inner.feed.listeners ∧ Joined inner.endpoints s

/-- A deed leaves the chain linked, and whoever listens to its outer end is told the new endpoints
last, or nothing if they stay. -/
theorem Step.linked {c d : Chain σ} {deed : Deed} {told : Listener → List (List Endpoint)}
    (k : Step c deed told d) (hc : c.Linked) :
    d.Linked ∧ ∀ listener ∈ c.feed.listeners,
      listener ∈ d.feed.listeners ∧ d.endpoints = (told listener).getLastD c.endpoints := by
  induction k with
  | set f list =>
    refine ⟨(Feed.closed_announce f list).trans hc, ?_⟩
    intro listener hl
    have hlistens : listener ∈ f.listeners := hl
    by_cases haccepts : f.accepts list = true
    · simp [endpoints, feed, Feed.announce, Feed.audience, haccepts, hlistens]
    · simp [endpoints, feed, Feed.announce, Feed.audience, haccepts, hlistens]
  | @event inner ours s t event hordinary k =>
    obtain ⟨hinner, hours, hjoined⟩ := hc
    have hafter := hjoined.event hordinary k
    refine ⟨⟨hinner, hours, hafter⟩, ?_⟩
    intro listener hl
    obtain ⟨heard, hheard⟩ := k.relays hjoined.rest (Or.inr hl)
    refine ⟨hheard.listens hafter.opened, ?_⟩
    rw [hheard.news_eq]
    exact hheard.current
  | @inner c d ours s t deed told k hears ih =>
    obtain ⟨hinner, hours, hjoined⟩ := hc
    obtain ⟨hlinked, hrelayed⟩ := ih hinner
    obtain ⟨hours', hcurrent⟩ := hrelayed ours hours
    obtain ⟨hafter, hheard⟩ := hjoined.offers hears
    -- what the supervisor has heard last is what its source has now
    rw [← hcurrent] at hafter
    refine ⟨⟨hlinked, hours', hafter⟩, ?_⟩
    intro listener hl
    obtain ⟨heard, hheard⟩ := hheard listener hl
    refine ⟨hheard.listens hafter.opened, ?_⟩
    rw [hheard.news_eq]
    exact hheard.current

omit [Strategy σ] in
/-- A further listener leaves a chain linked, and its endpoints. -/
theorem linked_subscribe {c : Chain σ} (h : c.Linked) (listener : Listener) :
    (c.subscribe listener).Linked ∧ listener ∈ (c.subscribe listener).feed.listeners ∧
      (c.subscribe listener).endpoints = c.endpoints := by
  cases c with
  | source f => exact ⟨h, by simp [subscribe, feed, Feed.subscribe], rfl⟩
  | extend inner ours s =>
    obtain ⟨hinner, hours, hjoined⟩ := h
    refine ⟨⟨hinner, hours, ?_⟩, ?_, rfl⟩
    · exact ⟨hjoined.candidates, hjoined.upToDate, hjoined.rest, hjoined.opened, hjoined.quiet⟩
    · simp [subscribe, feed, Supervisor.subscribe, Feed.subscribe]

/-- An act leaves every supervisor linked to its source. -/
theorem Change.linked {c d : Chain σ} {act : Act σ} (k : Change c act d) (hc : c.Linked) :
    d.Linked := by
  cases k with
  | deed k => exact (k.linked hc).1
  | build hquiet hfirst =>
    obtain ⟨hlinked, hours, hsame⟩ := linked_subscribe hc _
    refine ⟨hlinked, hours, ?_⟩
    rw [hsame]
    exact (joined_fresh hquiet _ _).offer hfirst

/-- So does every sequence of acts. -/
theorem Run.linked {c d : Chain σ} {acts : List (Act σ)} (h : Run c acts d) (hc : c.Linked) :
    d.Linked :=
  h.keeps (fun _ _ _ hlinked k => k.linked hlinked) hc

omit [Strategy σ] in
/-- In a linked chain every supervisor has the endpoints of its source for candidates. -/
theorem Linked.agrees {c : Chain σ} (h : c.Linked) : c.Agrees := by
  induction c with
  | source f => trivial
  | extend inner ours s ih => exact ⟨h.2.2.candidates, ih h.1⟩

omit [Strategy σ] in
/-- Going outwards, every supervisor keeps of the endpoints of its source those that are healthy. -/
theorem Linked.endpoints_eq {c : Chain σ} (h : c.Linked) (hstarted : c.started = true) :
    c.endpoints = c.base.filter c.healthy := by
  induction c with
  | source f => exact (List.filter_eq_self.mpr fun _ _ => rfl).symm
  | extend inner ours s ih =>
    obtain ⟨hinner, -, hjoined⟩ := h
    obtain ⟨hs, hstarted⟩ := (Bool.and_eq_true _ _).mp hstarted
    calc s.endpoints = s.candidates.filter s.health.isHealthy := hjoined.upToDate hs hjoined.opened
      _ = (inner.base.filter inner.healthy).filter s.health.isHealthy := by
        rw [hjoined.candidates, ih hinner hstarted]
      _ = inner.base.filter (extend inner ours s).healthy := List.filter_filter

/-! ## Replaying -/

/-- What a deed does, with a bound on the passes of each event. -/
def replayDeed (n : Nat) : Chain σ → Deed → Option ((Listener → List (List Endpoint)) × Chain σ)
  | source f, .set list =>
    some (fun listener => if listener ∈ f.audience list then [list] else [],
      source (f.announce list))
  | extend inner ours s, .event event =>
    if event.ordinary then
      (s.replayEvent n event).map fun t => (s.news t, extend inner ours t)
    else none
  | extend inner ours s, .inner deed => do
    let (told, inner) ← inner.replayDeed n deed
    let t ← s.replay n ((told ours).map .offer)
    some (s.news t, extend inner ours t)
  | _, _ => none

/-- What an act does, with a bound on the passes of each event. -/
def replayAct (n : Nat) (c : Chain σ) : Act σ → Option (Chain σ)
  | .deed deed => (c.replayDeed n deed).map Prod.snd
  | .build terms strategy ours ears =>
    let first := ears.foldl Supervisor.subscribe (Supervisor.fresh terms strategy)
    (first.replayEvent n (.offer c.endpoints)).map fun s => extend (c.subscribe ours) ours s

/-- What some acts do, with a bound on the passes of each event. -/
def replay (n : Nat) (c : Chain σ) (acts : List (Act σ)) : Option (Chain σ) :=
  acts.foldlM (replayAct n) c

/-- An offer that can be replayed is one that the supervisor takes. -/
theorem offer_of_replayEvent {n : Nat} {s t : Supervisor σ} (hrest : s.refreshing = false)
    {list : List Endpoint} (h : s.replayEvent n (.offer list) = some t) :
    s.offer list = some t := by
  cases Supervisor.step_of_replayEvent hrest h with
  | offer hoffer => exact hoffer

/-- Offers that can be replayed are such that the supervisor takes one after the other. -/
theorem offers_of_replay {n : Nat} {lists : List (List Endpoint)} {s t : Supervisor σ}
    (hrest : s.refreshing = false) (h : s.replay n (lists.map .offer) = some t) :
    lists.foldlM Supervisor.offer s = some t := by
  induction lists generalizing s with
  | nil => exact h
  | cons list lists ih =>
    unfold Supervisor.replay at h
    rw [List.map_cons, List.foldlM_cons] at h
    obtain ⟨u, hu, h⟩ := Option.bind_eq_some_iff.mp h
    have hoffer := offer_of_replayEvent hrest hu
    have hidle := (Supervisor.Step.offer hoffer).refreshing hrest
    rw [List.foldlM_cons]
    exact Option.bind_eq_some_iff.mpr ⟨u, hoffer, ih hidle h⟩

/-- A deed that can be replayed in a linked chain is a step of it. -/
theorem step_of_replayDeed {n : Nat} {c d : Chain σ} {deed : Deed}
    {told : Listener → List (List Endpoint)} (hc : c.Linked)
    (h : c.replayDeed n deed = some (told, d)) : Step c deed told d := by
  induction c generalizing deed told d with
  | source f =>
    cases deed with
    | set list =>
      cases h
      exact Step.set f list
    | event event => cases h
    | inner deed => cases h
  | extend inner ours s ih =>
    obtain ⟨hinner, -, hjoined⟩ := hc
    cases deed with
    | set list => cases h
    | event event =>
      simp only [replayDeed] at h
      split at h
      · rename_i hordinary
        obtain ⟨t, ht, heq⟩ := Option.map_eq_some_iff.mp h
        cases heq
        exact Step.event hordinary (Supervisor.step_of_replayEvent hjoined.rest ht)
      · cases h
    | inner deed =>
      simp only [replayDeed] at h
      obtain ⟨⟨heard, after⟩, hafter, h⟩ := Option.bind_eq_some_iff.mp h
      obtain ⟨t, ht, heq⟩ := Option.bind_eq_some_iff.mp h
      cases heq
      exact Step.inner (ih hinner hafter) (offers_of_replay hjoined.rest ht)

/-- An act that can be replayed on a linked chain is a change of it. -/
theorem change_of_replayAct {n : Nat} {c d : Chain σ} {act : Act σ} (hc : c.Linked)
    (hquiet : ∀ terms strategy ours ears, act = .build terms strategy ours ears → Quiet terms)
    (h : c.replayAct n act = some d) : Change c act d := by
  cases act with
  | deed deed =>
    obtain ⟨⟨told, e⟩, hdeed, rfl⟩ := Option.map_eq_some_iff.mp h
    exact .deed (step_of_replayDeed hc hdeed)
  | build terms strategy ours ears =>
    obtain ⟨s, hs, rfl⟩ := Option.map_eq_some_iff.mp h
    have hgiven := hquiet terms strategy ours ears rfl
    exact .build hgiven (offer_of_replayEvent (joined_fresh hgiven strategy ears).rest hs)

/-- A property of what is replayed is one that some run arrives at. -/
theorem exists_run_of_replay {n : Nat} {c : Chain σ} (hc : c.Linked) {acts : List (Act σ)}
    (hquiet : ∀ terms strategy ours ears, Act.build terms strategy ours ears ∈ acts → Quiet terms)
    {P : Chain σ → Prop} [DecidablePred P]
    (h : (c.replay n acts).any (fun d => P d) = true) : ∃ d, Run c acts d ∧ P d := by
  refine Run.exists_of_foldlM (P := Linked) (fun hin hlinked hd => ?_) hc h
  have k := change_of_replayAct hlinked
    (fun terms strategy ours ears heq => hquiet terms strategy ours ears (heq ▸ hin)) hd
  exact ⟨k, k.linked hlinked⟩

/-! ## Main statement -/

/-- In a chain of any length, whatever has been done in it since it was begun on an open feed: every
supervisor has the endpoints of its source for candidates. And when all have started, the endpoints
at the outer end are those of the feed that are healthy for every supervisor, in the order of the
feed. -/
theorem chained_supervisors_agree {f : Feed} (hopen : f.closed = false) {acts : List (Act σ)}
    {c : Chain σ} (h : Run (source f) acts c) :
    c.Agrees ∧ (c.started = true → c.endpoints = c.base.filter c.healthy) := by
  have hlinked : c.Linked := h.linked hopen
  exact ⟨hlinked.agrees, hlinked.endpoints_eq⟩

/-- Two supervisors on a feed. The outer one checks two of what the inner one publishes, and hears
in turn of a report there, of a change of the feed and of a failure of its own. -/
theorem chained_supervisors_agree_after_changes :
    let a : Endpoint := { host := "a" }
    let b : Endpoint := { host := "b" }
    let c : Endpoint := { host := "c" }
    let terms : Terms :=
      { greeting := fun before e => [.report before.length (if e = b then 0.0 else 1.0)] }
    let others : Terms := { greeting := fun before _ => [.report before.length 1.0] }
    let acts : List (Act Policy) :=
      [.build terms (Policy.ofQuota none) 0 [], .deed (.event .start),
        .build others (Policy.ofQuota (some (.count 2))) 1 [0], .deed (.event .start),
        .deed (.inner (.event (.report 1 1.0))), .deed (.inner (.inner (.set [c, b]))),
        .deed (.event (.report 1 0.0))]
    ∃ chain, Run (source (Feed.ofList [a, b, c])) acts chain ∧ chain.started = true ∧
      chain.base = [c, b] ∧ chain.endpoints = [b] ∧ chain.Agrees ∧
      chain.endpoints = chain.base.filter chain.healthy := by
  intro a b c terms others acts
  have hquiet : ∀ given strategy ours ears,
      Act.build given strategy ours ears ∈ acts → Quiet given := by
    intro given strategy ours ears hin before e candidates
    simp only [acts, List.mem_cons, Act.build.injEq, reduceCtorEq, List.not_mem_nil, or_false,
      false_or] at hin
    rcases hin with ⟨rfl, -⟩ | ⟨rfl, -⟩ <;> simp [terms, others]
  have hlinked : Linked (source (Feed.ofList [a, b, c]) : Chain Policy) := rfl
  obtain ⟨chain, h, hstarted, hbase, hend⟩ :
      ∃ chain, Run (source (Feed.ofList [a, b, c])) acts chain ∧ chain.started = true ∧
        chain.base = [c, b] ∧ chain.endpoints = [b] :=
    exists_run_of_replay (n := 9) hlinked hquiet (by decide)
  obtain ⟨hagrees, hrestricted⟩ := chained_supervisors_agree rfl h
  exact ⟨chain, h, hstarted, hbase, hend, hagrees, hrestricted hstarted⟩

end Chain

end HealthWatch
