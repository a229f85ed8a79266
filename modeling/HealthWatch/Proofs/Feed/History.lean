import HealthWatch.Feed
import Mathlib.Data.List.Destutter

/-!
# A feed is told by its history

Lists are announced on a feed, listeners join it, and it is closed. An announcement is taken if the
feed is open and the list is not the one that was taken last. What the feed holds, whether a list
was announced and who hears what all follow from the lists that were taken (`taken`): the feed holds
the last of them, and a listener hears those that were taken since it joined.

The same listener may join twice and hears everything twice then. So a listener is known by its
place among the listeners, which stays the same until the feed is closed (`heardAt`).
-/

set_option autoImplicit false

namespace HealthWatch.Feed

/-- Something that is done to a feed. -/
inductive Act where
  | announce (list : List Endpoint)
  | subscribe (listener : Listener)
  | close
deriving DecidableEq

/-- The feed after an act. -/
def act (f : Feed) : Act → Feed
  | .announce list => f.announce list
  | .subscribe listener => f.subscribe listener
  | .close => f.close

/-- The listeners who are told of a list on an act. -/
def reached (f : Feed) : Act → List Listener
  | .announce list => f.audience list
  | .subscribe _ => []
  | .close => []

/-- The feed after some acts. -/
def after (f : Feed) (acts : List Act) : Feed :=
  acts.foldl act f

/-- The lists that the feed takes, of those that are announced. -/
def taken (f : Feed) : List Act → List (List Endpoint)
  | [] => []
  | .announce list :: rest =>
    (if f.accepts list then [list] else []) ++ (f.announce list).taken rest
  | .subscribe listener :: rest => (f.subscribe listener).taken rest
  | .close :: rest => f.close.taken rest

/-- Each list that is announced, with the listeners who are told of it. -/
def told (f : Feed) : List Act → List (List Endpoint × List Listener)
  | [] => []
  | .announce list :: rest => (list, f.audience list) :: (f.announce list).told rest
  | .subscribe listener :: rest => (f.subscribe listener).told rest
  | .close :: rest => f.close.told rest

/-- What a listener hears at its place among the listeners, of all that is told. -/
def heardAt (place : Nat) (listener : Listener) (told : List (List Endpoint × List Listener)) :
    List (List Endpoint) :=
  told.filterMap fun (list, audience) =>
    if audience[place]? = some listener then some list else none

/-! ## Announcements that are taken, and others -/

/-- A list is accepted by an open feed if it is not the current one, or if none was announced
before. -/
theorem accepts_iff {f : Feed} {list : List Endpoint} :
    f.accepts list = true ↔ f.closed = false ∧ (list ≠ f.current ∨ f.announced = false) := by
  cases hannounced : f.announced with
  | false => simp [accepts, hannounced]
  | true => simpa [accepts, hannounced] using and_congr_right fun _ => ne_comm

/-! ## What the feed holds -/

/-- The feed holds the list that it took last. -/
theorem current_after (f : Feed) (acts : List Act) :
    (f.after acts).current = (f.taken acts).getLastD f.current := by
  induction acts generalizing f with
  | nil => rfl
  | cons a rest ih =>
    have hrest : (f.after (a :: rest)).current =
        ((f.act a).taken rest).getLastD (f.act a).current := ih (f.act a)
    rw [hrest]
    cases a with
    | announce list =>
      cases h : f.accepts list with
      | true =>
        simp only [act, taken, h, announce_of_accepts h, if_true, List.cons_append,
          List.nil_append, List.getLastD_cons]
      | false => simp [act, taken, h, announce_of_not_accepts h]
    | subscribe listener => rfl
    | close => rfl

/-- A list is there once one has been taken. -/
theorem announced_after (f : Feed) (acts : List Act) :
    (f.after acts).announced = (f.announced || !(f.taken acts).isEmpty) := by
  induction acts generalizing f with
  | nil => simp [after, taken]
  | cons a rest ih =>
    have hrest : (f.after (a :: rest)).announced =
        ((f.act a).announced || !((f.act a).taken rest).isEmpty) := ih (f.act a)
    rw [hrest]
    cases a with
    | announce list =>
      cases h : f.accepts list with
      | true => simp [act, taken, h, announce_of_accepts h]
      | false => simp [act, taken, h, announce_of_not_accepts h]
    | subscribe listener => rfl
    | close => rfl

/-- A feed is closed once it has been closed. -/
theorem closed_after (f : Feed) (acts : List Act) :
    (f.after acts).closed = true ↔ f.closed = true ∨ Act.close ∈ acts := by
  induction acts generalizing f with
  | nil => simp [after]
  | cons a rest ih =>
    have hrest : (f.after (a :: rest)).closed = true ↔
        (f.act a).closed = true ∨ Act.close ∈ rest := ih (f.act a)
    rw [hrest]
    cases a with
    | announce list => simp [act, closed_announce]
    | subscribe listener => simp [act, subscribe]
    | close => simp [act, close]

/-- A closed feed takes nothing and tells nobody. -/
theorem taken_of_closed {f : Feed} (h : f.closed = true) (acts : List Act) :
    f.taken acts = [] ∧ ∀ t ∈ f.told acts, t.2 = [] := by
  induction acts generalizing f with
  | nil => simp [taken, told]
  | cons a rest ih =>
    cases a with
    | announce list =>
      have hrefused := accepts_of_closed h list
      simpa [taken, told, hrefused, announce_of_not_accepts hrefused,
        audience_of_not_accepts hrefused] using ih h
    | subscribe listener => exact ih (f := f.subscribe listener) h
    | close => exact ih (f := f.close) rfl

/-! ## What is taken -/

/-- The lists that are announced before the feed is closed. -/
def announcements : List Act → List (List Endpoint)
  | [] => []
  | .announce list :: rest => list :: announcements rest
  | .subscribe _ :: rest => announcements rest
  | .close :: _ => []

/-- An open feed comes to hold the last list that is announced, be it taken or not. -/
theorem current_after_of_open {f : Feed} (hopen : f.closed = false) (acts : List Act) :
    (f.after acts).current = (announcements acts).getLastD f.current := by
  induction acts generalizing f with
  | nil => rfl
  | cons a rest ih =>
    cases a with
    | announce list =>
      have hrest := ih ((closed_announce f list).trans hopen)
      rw [current_announce hopen] at hrest
      rw [announcements, List.getLastD_cons]
      exact hrest
    | subscribe listener => exact ih (f := f.subscribe listener) hopen
    | close =>
      have hkept := current_after f.close rest
      rw [(taken_of_closed rfl rest).1] at hkept
      exact hkept

/-- An open feed with a list takes what is announced, unless it repeats the list before. -/
theorem cons_taken_of_announced {f : Feed} (hopen : f.closed = false) (h : f.announced = true)
    (acts : List Act) :
    f.current :: f.taken acts = (announcements acts).destutter' (· ≠ ·) f.current := by
  induction acts generalizing f with
  | nil => rfl
  | cons a rest ih =>
    cases a with
    | announce list =>
      cases haccepts : f.accepts list with
      | true =>
        have hnew : f.current ≠ list := by
          rcases (accepts_iff.mp haccepts).2 with hnew | hnone
          · exact hnew.symm
          · simp [h] at hnone
        have hrest := ih (f := { f with current := list, announced := true }) hopen rfl
        rw [announcements, List.destutter'_cons_pos _ hnew, ← hrest]
        simp [taken, haccepts, announce_of_accepts haccepts]
      | false =>
        have hheld : f.current = list := by simpa [accepts, hopen, h] using haccepts
        rw [announcements, List.destutter'_cons_neg _ (not_not.mpr hheld), ← ih hopen h]
        simp [taken, haccepts, announce_of_not_accepts haccepts]
    | subscribe listener => exact ih (f := f.subscribe listener) hopen h
    | close =>
      have hnothing := (taken_of_closed (f := f.close) rfl rest).1
      simp [taken, announcements, hnothing]

/-- An open feed without a list takes the first list that is announced, whatever it is. -/
theorem taken_of_not_announced {f : Feed} (hopen : f.closed = false) (h : f.announced = false)
    (acts : List Act) : f.taken acts = (announcements acts).destutter (· ≠ ·) := by
  induction acts generalizing f with
  | nil => rfl
  | cons a rest ih =>
    cases a with
    | announce list =>
      have haccepts : f.accepts list = true := accepts_iff.mpr ⟨hopen, Or.inr h⟩
      have hrest := cons_taken_of_announced (f := { f with current := list, announced := true })
        hopen rfl rest
      rw [announcements, List.destutter_cons', ← hrest]
      simp [taken, haccepts, announce_of_accepts haccepts]
    | subscribe listener => exact ih (f := f.subscribe listener) hopen h
    | close => exact (taken_of_closed (f := f.close) rfl rest).1

/-- No feed takes the same list twice in a row. -/
theorem isChain_taken (f : Feed) (acts : List Act) : (f.taken acts).IsChain (· ≠ ·) := by
  cases hclosed : f.closed with
  | true =>
    rw [(taken_of_closed hclosed acts).1]
    exact List.isChain_nil
  | false =>
    cases hannounced : f.announced with
    | true =>
      have hchain := (announcements acts).isChain_destutter' (· ≠ ·) f.current
      rw [← cons_taken_of_announced hclosed hannounced] at hchain
      exact hchain.tail
    | false =>
      rw [taken_of_not_announced hclosed hannounced]
      exact List.isChain_destutter _ _

/-! ## What a listener hears -/

/-- A listener hears everything that is taken as long as it has its place while the feed is open. -/
theorem heardAt_eq_taken {f : Feed} {place : Nat} {listener : Listener}
    (h : f.closed = false → f.listeners[place]? = some listener) (acts : List Act) :
    heardAt place listener (f.told acts) = f.taken acts := by
  induction acts generalizing f with
  | nil => rfl
  | cons a rest ih =>
    cases a with
    | announce list =>
      cases haccepts : f.accepts list with
      | true =>
        have hplace := h (accepts_iff.mp haccepts).1
        have hrest := ih (f := { f with current := list, announced := true }) h
        simpa [heardAt, told, taken, haccepts, announce_of_accepts haccepts,
          audience_of_accepts haccepts, hplace] using hrest
      | false =>
        simpa [heardAt, told, taken, haccepts, announce_of_not_accepts haccepts,
          audience_of_not_accepts haccepts] using ih h
    | subscribe other =>
      refine ih (f := f.subscribe other) fun hopen => ?_
      have hplace := h hopen
      obtain ⟨hbound, -⟩ := List.getElem?_eq_some_iff.mp hplace
      rw [subscribe, List.getElem?_append_left hbound, hplace]
    | close => exact ih (f := f.close) nofun

/-- A listener hears everything that is taken from when it joins. -/
theorem heardAt_subscribe (f : Feed) (listener : Listener) (acts : List Act) :
    heardAt f.listeners.length listener ((f.subscribe listener).told acts) =
      (f.subscribe listener).taken acts :=
  heardAt_eq_taken (fun _ => by simp [subscribe]) acts

/-! ## Main statement -/

/-- A feed on which nothing has been done, with the list that it has from the start, if any. -/
def start (initial : Option (List Endpoint)) : Feed :=
  initial.elim empty ofList

/-- A feed starts open, with the list it is given, if it is given one. -/
theorem start_eq (initial : Option (List Endpoint)) :
    (start initial).current = initial.getD [] ∧ (start initial).closed = false ∧
      ((start initial).announced = false ↔ initial = none) := by
  cases initial <;> simp [start, empty, ofList]

/-- A feed takes what is announced until it is closed, without repetitions. -/
theorem taken_start (initial : Option (List Endpoint)) (acts : List Act) :
    (start initial).taken acts = initial.elim ((announcements acts).destutter (· ≠ ·))
      fun list => ((announcements acts).destutter' (· ≠ ·) list).tail := by
  cases initial with
  | none => exact taken_of_not_announced rfl rfl acts
  | some list =>
    have htaken := cons_taken_of_announced (f := ofList list) rfl rfl acts
    exact congrArg List.tail htaken

/-- After any acts: a list is taken exactly if the feed has not been closed and the list is not the
one that it holds, or none was there and none has been taken. So what is taken are the lists that
are announced before the feed is closed, without repetitions, and the feed holds the last of them. A
listener that joins hears just the lists that are taken from then on, and never one twice in a row.
Once a list is there, one is there for good. Once the feed is closed, it keeps its list, takes
nothing and tells nobody, whoever joins. -/
theorem feed_follows_its_history (initial : Option (List Endpoint)) (acts : List Act) :
    let f := start initial
    let g := f.after acts
    (∀ list, g.accepts list = true ↔
      Act.close ∉ acts ∧ (list ≠ g.current ∨ initial = none ∧ f.taken acts = [])) ∧
    f.taken acts = initial.elim ((announcements acts).destutter (· ≠ ·))
      (fun list => ((announcements acts).destutter' (· ≠ ·) list).tail) ∧
    g.current = (f.taken acts).getLastD (initial.getD []) ∧
    (∀ listener later,
      heardAt g.listeners.length listener ((g.subscribe listener).told later) =
        (g.subscribe listener).taken later ∧
      ((g.subscribe listener).taken later).IsChain (· ≠ ·)) ∧
    (g.announced = true → ∀ later, (g.after later).announced = true) ∧
    (Act.close ∈ acts → ∀ later, (g.after later).current = g.current ∧
      g.taken later = [] ∧ ∀ t ∈ g.told later, t.2 = []) := by
  intro f g
  obtain ⟨hcurrent, hopen, hnone⟩ := start_eq initial
  have hclosed : g.closed = true ↔ Act.close ∈ acts := by
    rw [closed_after, hopen]
    simp
  have hannounced : g.announced = false ↔ initial = none ∧ f.taken acts = [] := by
    rw [announced_after, Bool.or_eq_false_iff, hnone]
    simp [f]
  refine ⟨fun list => ?_, taken_start initial acts, ?_, fun listener later => ?_,
    fun hthere later => ?_, fun hclose later => ?_⟩
  · rw [accepts_iff, hannounced, ← hclosed, Bool.not_eq_true]
  · rw [current_after, hcurrent]
  · exact ⟨heardAt_subscribe g listener later, isChain_taken _ later⟩
  · rw [announced_after, hthere, Bool.true_or]
  · obtain ⟨hnothing, hnobody⟩ := taken_of_closed (hclosed.mpr hclose) later
    refine ⟨?_, hnothing, hnobody⟩
    rw [current_after, hnothing, List.getLastD_nil]

/-- An empty list is taken as the first one, and again after another, but not twice in a row. A
listener that joins after the first hears the other two, and hears nothing after the feed is
closed. -/
theorem empty_list_is_taken_twice :
    let a : Endpoint := { host := "a" }
    let acts : List Act := [.announce [], .announce []]
    let later : List Act := [.announce [a], .announce [a], .announce [], .close, .announce [a]]
    let g := (start none).after acts
    heardAt g.listeners.length 7 ((g.subscribe 7).told later) = [[a], []] ∧
      (g.after later).announced = true ∧
      (((start none).after [.close]).after (.subscribe 7 :: later)).current = [] := by
  intro a acts later g
  obtain ⟨-, -, -, hhears, hthere, -⟩ := feed_follows_its_history none acts
  obtain ⟨-, -, -, -, -, hclosed⟩ := feed_follows_its_history none [.close]
  refine ⟨(hhears 7 later).1.trans (by decide), hthere (by decide) later, ?_⟩
  exact (hclosed (by decide) (.subscribe 7 :: later)).1.trans (by decide)

end HealthWatch.Feed
