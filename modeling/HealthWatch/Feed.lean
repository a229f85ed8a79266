import HealthWatch.Endpoint

/-!
# Feeds

A list of endpoints that can be watched. Announcing a list tells every listener, unless the list is
the current one and some list was announced before. A closed feed keeps its list for good and has
no listeners.

Listeners are numbers given by the feed's owner. `Feed.announce` says which of them to tell, so
telling is the owner's work.
-/

set_option autoImplicit false

namespace HealthWatch

/-- The number by which a feed's owner knows a listener. -/
abbrev Listener := Nat

/-- A list of endpoints with the listeners to its changes. -/
structure Feed where
  current : List Endpoint := []
  /-- Has a list been announced, or was one there from the start? -/
  announced : Bool := false
  listeners : List Listener := []
  closed : Bool := false
deriving Repr, Inhabited

namespace Feed

/-- A feed on which nothing has been announced. -/
def empty : Feed := {}

/-- A feed that has a list from the start. -/
def ofList (endpoints : List Endpoint) : Feed :=
  { current := endpoints, announced := true }

/-- Would announcing this list change the feed? -/
def accepts (f : Feed) (endpoints : List Endpoint) : Bool :=
  !f.closed && !(f.announced && f.current == endpoints)

/-- Makes a list the current one. -/
def announce (f : Feed) (endpoints : List Endpoint) : Feed :=
  if f.accepts endpoints then { f with current := endpoints, announced := true } else f

/-- The listeners to tell when a list is announced. -/
def audience (f : Feed) (endpoints : List Endpoint) : List Listener :=
  if f.accepts endpoints then f.listeners else []

/-- Adds a listener. One added to a closed feed is never told anything. -/
def subscribe (f : Feed) (listener : Listener) : Feed :=
  { f with listeners := f.listeners ++ [listener] }

/-- Closes the feed and forgets its listeners. -/
def close (f : Feed) : Feed :=
  { f with closed := true, listeners := [] }

/-! ## What an announcement changes -/

/-- An open feed has the announced list, also when it had it before. -/
theorem current_announce {f : Feed} (hopen : f.closed = false) (list : List Endpoint) :
    (f.announce list).current = list := by
  unfold announce
  split
  · rfl
  · rename_i hsame
    have hsame : f.announced = true ∧ f.current = list := by simpa [accepts, hopen] using hsame
    exact hsame.2

/-- An announcement neither closes a feed nor opens one. -/
theorem closed_announce (f : Feed) (list : List Endpoint) :
    (f.announce list).closed = f.closed := by
  unfold announce
  split <;> rfl

/-- A list that is accepted becomes the current one. -/
theorem announce_of_accepts {f : Feed} {list : List Endpoint} (h : f.accepts list = true) :
    f.announce list = { f with current := list, announced := true } :=
  if_pos h

/-- A list that is accepted is told to all listeners. -/
theorem audience_of_accepts {f : Feed} {list : List Endpoint} (h : f.accepts list = true) :
    f.audience list = f.listeners :=
  if_pos h

/-- A list that is not accepted changes nothing. -/
theorem announce_of_not_accepts {f : Feed} {list : List Endpoint} (h : f.accepts list = false) :
    f.announce list = f := by
  simp [announce, h]

/-- A list that is not accepted is told to nobody. -/
theorem audience_of_not_accepts {f : Feed} {list : List Endpoint} (h : f.accepts list = false) :
    f.audience list = [] := by
  simp [audience, h]

/-- A closed feed takes no list. -/
theorem accepts_of_closed {f : Feed} (h : f.closed = true) (list : List Endpoint) :
    f.accepts list = false := by
  simp [accepts, h]

/-- What was announced once stays announced. -/
theorem announced_announce {f : Feed} (h : f.announced = true) (list : List Endpoint) :
    (f.announce list).announced = true := by
  unfold announce
  split
  · rfl
  · exact h

end Feed

end HealthWatch
