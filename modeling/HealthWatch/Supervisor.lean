import HealthWatch.Backoff
import HealthWatch.Feed
import HealthWatch.HealthBook
import HealthWatch.Strategy
import HealthWatch.Watch

/-!
# The supervisor

A supervisor takes candidates from a source, keeps a watch on each endpoint that its strategy
selects, enters the watches' reports in its health book and publishes the healthy candidates, in
the order of the candidates.

Watches follow the selection by passes: a pass lets go of the watches whose endpoints are no longer
selected and begins watches for those that newly are. The check of a watch may call the supervisor
while the watch is being begun, which may change the selection again. Passes do not nest: a trigger
that arrives while passes are under way is noted, and another pass follows.

Every operation is a function on the state. What has to happen outside of it (telling listeners,
ending a watch that was let go, setting up a new one) is left in the outbox, in order. An operation
that makes passes gives nothing when the passes never come to an end, which a check can bring about
that keeps changing the selection.
-/

set_option autoImplicit false

namespace HealthWatch

/-- Something for the supervisor's owner to do. -/
inductive Effect where
  /-- A watch has begun. -/
  | began (watch : Nat)
  /-- A watch was let go and is to be ended. -/
  | released (watch : Nat)
  /-- A list was published; these listeners are to be told. -/
  | published (endpoints : List Endpoint) (audience : List Listener)
deriving Repr, DecidableEq

/-- Something that a supervisor is asked to do from outside. -/
inductive Call where
  /-- The source has new candidates. -/
  | offer (candidates : List Endpoint)
  /-- A watch reports a score. -/
  | report (watch : Nat) (score : Float)
deriving Repr

/-- What stays the same for a supervisor's whole life. -/
structure Terms where
  scheme : Scheme := .http
  /-- Checks go to this port instead of the endpoint's own. -/
  port : Option UInt16 := none
  /-- The spacing of checks. -/
  backoff : Backoff := .usual
  /-- What the check of an endpoint calls while its watch is being begun, in order, given the
  endpoints of the watches begun before. -/
  greeting : List Endpoint → Endpoint → List Call := fun _ _ => []

/-- The state of a supervisor. -/
structure Supervisor (σ : Type) where
  terms : Terms
  strategy : σ
  /-- Every watch ever begun, the newest last; a watch goes by its place in this list. -/
  watches : List Watch := []
  /-- The watches in force, by endpoint. -/
  current : List (Endpoint × Nat) := []
  /-- The endpoints with a watch in force when the last pass ended. -/
  checked : List Endpoint := []
  /-- Is a pass due? Every trigger sets this; passes follow until it is clear. -/
  requested : Bool := false
  /-- Are passes under way? -/
  refreshing : Bool := false
  health : HealthBook := .empty
  candidates : List Endpoint := []
  published : Feed := Feed.empty
  /-- Has every first watch reported, so that publishing is open? -/
  started : Bool := false
  closing : Bool := false
  closed : Bool := false
  /-- Was the supervisor dropped without being closed? -/
  abandoned : Bool := false
  outbox : List Effect := []

namespace Supervisor

variable {σ : Type}

/-- A supervisor that has no candidates yet. -/
def fresh (terms : Terms) (strategy : σ) : Supervisor σ :=
  { terms := terms, strategy := strategy }

/-! ## What can be seen -/

/-- The published endpoints. -/
def endpoints (s : Supervisor σ) : List Endpoint :=
  s.published.current

/-- The endpoints with a watch in force. -/
def inForce (s : Supervisor σ) : List Endpoint :=
  s.current.map Prod.fst

/-- What the book says of the candidates. -/
def snapshot (s : Supervisor σ) : HealthSnapshot :=
  s.health.snapshot s.candidates

/-- The healthy candidates, in the order and as often as they are candidates. -/
def healthyCandidates (s : Supervisor σ) : List Endpoint :=
  s.health.healthyOf s.candidates

/-- Is a watch in force on the endpoint? -/
def watching (s : Supervisor σ) (e : Endpoint) : Bool :=
  s.inForce.contains e

/-- The published endpoints and the candidates in one line. -/
def description (s : Supervisor σ) : String :=
  let listed (endpoints : List Endpoint) := ", ".intercalate (endpoints.map Endpoint.authority)
  "HealthCheckedEndpointGroup\x7bchosen=[" ++ listed s.endpoints ++ "], candidates=[" ++
    listed s.candidates ++ "]\x7d"

/-- One line on a watch's place, for diagnostics. -/
def watchDescription (s : Supervisor σ) (w : Watch) : String :=
  "HealthCheckerContext \x7b original_endpoint: " ++ w.origin.fields ++ ", endpoint: " ++
    w.target.fields ++ ", protocol: " ++ s.terms.scheme.title ++ ", .. \x7d"

/-- The delay before the next check of a watch, in milliseconds, with a run of draws. -/
def nextDelayWith (s : Supervisor σ) (draws : Backoff.Draws) (w : Watch) : Except JobError Nat :=
  w.waitFor (s.terms.backoff.delayWith draws 1)

/-- The delay before the next check of a watch, in milliseconds; with draws the least. -/
def nextDelay (s : Supervisor σ) (w : Watch) : Except JobError Nat :=
  w.waitFor (s.terms.backoff.delay 1)

/-! ## Publishing -/

/-- Publishes the healthy candidates, if they differ from what is published. -/
def republish (s : Supervisor σ) : Supervisor σ :=
  let list := s.healthyCandidates
  if s.published.accepts list then
    { s with
      published := s.published.announce list
      outbox := s.outbox ++ [.published list (s.published.audience list)] }
  else s

/-- Publishes if there is a reason to. -/
def republishIf (s : Supervisor σ) (reason : Bool) : Supervisor σ :=
  if reason then s.republish else s

/-! ## The book -/

/-- Enters a score in the book. -/
def record (s : Supervisor σ) (e : Endpoint) (score : Float) : Supervisor σ :=
  { s with health := s.health.record e score }

/-- Strikes an endpoint out of the book. -/
def forget (s : Supervisor σ) (e : Endpoint) : Supervisor σ :=
  { s with health := s.health.forget e }

/-- Enters a watch's score in the book and publishes if that made a difference. The final score of
a watch that is ended (`final`) is forgotten when its endpoint is no candidate any more; any other
score counts as long as the watch is not retired. -/
def enterScore (s : Supervisor σ) (w : Watch) (score : Float) (final : Bool) : Supervisor σ :=
  if w.retired && !final then s
  else if final && !s.candidates.contains w.origin then
    (s.forget w.origin).republishIf (s.health.isHealthy w.origin)
  else (s.record w.origin score).republishIf (s.health.turns w.origin score)

/-- Adds a listener to the published endpoints. -/
def subscribe (s : Supervisor σ) (listener : Listener) : Supervisor σ :=
  { s with published := s.published.subscribe listener }

/-- Changes one watch. -/
def modifyWatch (s : Supervisor σ) (i : Nat) (f : Watch → Watch) : Supervisor σ :=
  { s with watches := s.watches.modify i f }

/-! ## Watches -/

/-- Adds a watch, which is not in force yet. -/
def addWatch (s : Supervisor σ) (e : Endpoint) : Supervisor σ :=
  { s with
    watches := s.watches ++
      [{ origin := e, target := e.checkTarget s.terms.scheme s.terms.port }] }

/-- Puts a watch in force. -/
def enlist (s : Supervisor σ) (e : Endpoint) (i : Nat) : Supervisor σ :=
  { s with current := s.current ++ [(e, i)], outbox := s.outbox ++ [.began i] }

/-- Lets go of the watches whose endpoints are not among those chosen. -/
def releaseUnchosen (s : Supervisor σ) (chosen : List Endpoint) : Supervisor σ :=
  let unchosen := s.current.filter (fun entry => !chosen.contains entry.1)
  { s with
    current := s.current.filter (fun entry => chosen.contains entry.1)
    outbox := s.outbox ++ unchosen.map (fun entry => .released entry.2) }

/-- Makes the endpoints with a watch in force known. -/
def noteChecked (s : Supervisor σ) : Supervisor σ :=
  { s with checked := s.inForce }

/-- Notes whether a pass is due. -/
def setRequested (s : Supervisor σ) (due : Bool) : Supervisor σ :=
  { s with requested := due }

/-- Notes whether passes are under way. -/
def setRefreshing (s : Supervisor σ) (underWay : Bool) : Supervisor σ :=
  { s with refreshing := underWay }

/-- Puts the strategy in a new state. -/
def setStrategy (s : Supervisor σ) (strategy : σ) : Supervisor σ :=
  { s with strategy := strategy }

variable [Strategy σ]

/-- Takes new candidates: the book forgets all others, and the strategy selects among them. -/
def adopt (s : Supervisor σ) (candidates : List Endpoint) : Supervisor σ :=
  { s with
    candidates := candidates
    health := s.health.keepOnly candidates
    strategy := Strategy.offer s.strategy candidates }

/-! ## Calls and passes

A call may lead to passes, a pass begins watches, and a watch that is being begun may call again.
-/

mutual

/-- Takes new candidates from the source. Before the start the first publication is still to
come. -/
def offer (s : Supervisor σ) (candidates : List Endpoint) : Option (Supervisor σ) := do
  let s ← s.adopt candidates |>.refresh
  some (s.republishIf s.started)
partial_fixpoint

/-- Takes a score of a watch, which may be its final one. When the supervisor is gone, only the
watch notes it. -/
def deliver (s : Supervisor σ) (i : Nat) (score : Float) (final : Bool) :
    Option (Supervisor σ) :=
  match s.watches[i]? with
  | none => some s
  | some w => do
    let s ← if s.abandoned then some s else s.enterScore w score final |>.consult w.origin score
    some (s.modifyWatch i Watch.markReported)
partial_fixpoint

/-- Lets the strategy hear a score, and brings the watches in line if it asks for that. -/
def consult (s : Supervisor σ) (e : Endpoint) (score : Float) : Option (Supervisor σ) :=
  let judged := Strategy.judge s.strategy e score
  if judged.2 then s.setStrategy judged.1 |>.refresh else some (s.setStrategy judged.1)
partial_fixpoint

/-- Does what is asked from outside. -/
def answer (s : Supervisor σ) : Call → Option (Supervisor σ)
  | .offer candidates => s |>.offer candidates
  | .report i score => s |>.deliver i score false
partial_fixpoint

/-- Asks for a pass. -/
def refresh (s : Supervisor σ) : Option (Supervisor σ) :=
  s.setRequested true |>.enterPasses
partial_fixpoint

/-- Makes passes, unless some are under way already, which then go on. A closing supervisor makes
none. -/
def enterPasses (s : Supervisor σ) : Option (Supervisor σ) :=
  if s.closing || s.refreshing then some s
  else do
    let s ← s.setRefreshing true |>.passes
    if s.requested then s.setRefreshing false |>.enterPasses else some (s.setRefreshing false)
partial_fixpoint

/-- Makes passes as long as one is due. -/
def passes (s : Supervisor σ) : Option (Supervisor σ) :=
  if s.requested then
    if s.closing then some (s.setRequested false)
    else do
      let s ← s.setRequested false |>.pass
      s |>.passes
  else some s
partial_fixpoint

/-- Brings the watches in line with the selection as it is at the start of the pass. -/
def pass (s : Supervisor σ) : Option (Supervisor σ) :=
  if s.closing then some s
  else do
    let chosen := Strategy.selected s.strategy
    let s ← chosen.foldlM (fun s e => if s.watching e then some s else s |>.beginWatch e)
      (s.releaseUnchosen chosen)
    some s.noteChecked
partial_fixpoint

/-- Begins a watch. Its check may call at once; only then is it in force. -/
def beginWatch (s : Supervisor σ) (e : Endpoint) : Option (Supervisor σ) := do
  let calls := s.terms.greeting (s.watches.map Watch.origin) e
  let begun ← calls.foldlM (fun s call => s |>.answer call) (s.addWatch e)
  some (begun.enlist e s.watches.length)
partial_fixpoint

end

/-! ## Operations -/

/-- Takes a report of a watch. -/
def report (s : Supervisor σ) (i : Nat) (score : Float) : Option (Supervisor σ) :=
  s.deliver i score false

/-- Ends a watch, after its check has stopped: no job of it is left, and its final score is zero.
A watch ends only once. -/
def retire (s : Supervisor σ) (i : Nat) : Option (Supervisor σ) :=
  match s.watches[i]? with
  | none => some s
  | some w => if w.retired then some s else (s.modifyWatch i Watch.retire).deliver i 0.0 true

omit [Strategy σ] in
/-- The watches whose first reports the start waits for: those in force. -/
def barrier (s : Supervisor σ) : List Nat :=
  s.current.map Prod.snd

omit [Strategy σ] in
/-- Have these watches reported, as far as they are there? -/
def allReported (s : Supervisor σ) (watches : List Nat) : Bool :=
  watches.all (fun i => (s.watches[i]?).all Watch.reported)

omit [Strategy σ] in
/-- Opens publishing with a first publication, even of an empty list. -/
def finishStartup (s : Supervisor σ) : Supervisor σ :=
  { s with started := true }.republish

omit [Strategy σ] in
/-- Begins to close: no more passes, and no watch is in force. The watches given back are to be
ended. -/
def beginClose (s : Supervisor σ) : List Nat × Supervisor σ :=
  (s.barrier, { s with closing := true, checked := [], current := [] })

omit [Strategy σ] in
/-- Closes the published feed, the last step of closing. -/
def finishClose (s : Supervisor σ) : Supervisor σ :=
  { s with published := s.published.close, closed := true }

omit [Strategy σ] in
/-- Drops the supervisor. Unless it is closing, the watches in force are to be ended. -/
def abandon (s : Supervisor σ) : Supervisor σ :=
  if s.closing then { s with abandoned := true }
  else
    { s with
      abandoned := true
      current := []
      outbox := s.outbox ++ s.barrier.map Effect.released }

omit [Strategy σ] in
/-- Enters a job of a watch and gives its number; a retired watch takes none. -/
def enterJob (s : Supervisor σ) (i : Nat) : Option (Nat × Supervisor σ) := do
  let w ← s.watches[i]?
  let (id, roster) ← w.roster.enter
  some (id, s.modifyWatch i (fun w => { w with roster := roster }))

omit [Strategy σ] in
/-- Takes a job of a watch out of its roster. -/
def releaseJob (s : Supervisor σ) (i id : Nat) : Supervisor σ :=
  s.modifyWatch i (fun w => { w with roster := w.roster.release id })

omit [Strategy σ] in
/-- Is a job of a watch under way? -/
def hasJob (s : Supervisor σ) (i id : Nat) : Bool :=
  (s.watches[i]?).any (fun w => w.roster.holds id)

omit [Strategy σ] in
/-- The outbox's effects, and the supervisor with an empty outbox. -/
def takeOutbox (s : Supervisor σ) : List Effect × Supervisor σ :=
  (s.outbox, { s with outbox := [] })

end Supervisor

end HealthWatch
