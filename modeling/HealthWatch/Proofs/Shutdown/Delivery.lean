import HealthWatch.Shutdown
import Mathlib.Data.List.Induction
import Mathlib.Data.List.TakeWhile

/-!
# A shutdown notice is delivered once

Handles of a signal are made and let go, subscribers join and look, and shutdown is called through
any handle any number of times. Subscribers are numbered as they join, so those who joined before
the first call are the first ones (`founders`).

Only the first call sends a message, and it is the only one that is ever sent (`Tracks.sent`). So
the single message that the channel keeps is never dropped: each founder finds it at its first look
after the call, and nobody else finds it, or finds it again.
-/

set_option autoImplicit false

namespace HealthWatch.Shutdown

/-- Something that is done with a signal. -/
inductive Act where
  | clone (handle : Nat)
  | subscribe (handle : Nat)
  | call (handle : Nat)
  | drop (handle : Nat)
  /-- A subscriber looks and finds something. -/
  | look (subscriber : Nat) (receipt : Receipt)
deriving DecidableEq

namespace Act

/-- Is shutdown called? -/
def calls : Act → Bool
  | call _ => true
  | _ => false

/-- Does a subscriber join? -/
def subscribes : Act → Bool
  | subscribe _ => true
  | _ => false

/-- Does a subscriber look? -/
def isLookOf (subscriber : Nat) : Act → Bool
  | look other _ => other == subscriber
  | _ => false

end Act

/-- The signal after an act. A handle that was let go can do nothing, and a subscriber finds just
what the signal has for it. -/
def step? (s : Shutdown) : Act → Option Shutdown
  | .clone handle => if s.holds handle then some s.clone else none
  | .subscribe handle => if s.holds handle then some s.subscribe else none
  | .call handle => if s.holds handle then some s.call else none
  | .drop handle => if s.holds handle then some (s.drop handle) else none
  | .look subscriber receipt =>
    if subscriber < s.channel.positions.length ∧ (s.look subscriber).1 = receipt then
      some (s.look subscriber).2
    else none

/-- The signal after some acts. -/
def after? (s : Shutdown) (acts : List Act) : Option Shutdown :=
  acts.foldlM step? s

/-! ## What was done -/

/-- How many subscribers joined before the first call. -/
def founders (acts : List Act) : Nat :=
  (acts.takeWhile fun act => !act.calls).countP Act.subscribes

/-- Has a subscriber looked since the first call? -/
def looked (acts : List Act) (subscriber : Nat) : Bool :=
  (acts.dropWhile fun act => !act.calls).any (Act.isLookOf subscriber)

/-- How often a subscriber found the message. -/
def notices (acts : List Act) (subscriber : Nat) : Nat :=
  acts.count (.look subscriber .message)

section

variable {acts : List Act} {act : Act}

/-- A first act that is a call leaves no founder to come; any other adds the subscriber it may
bring. -/
theorem founders_cons (act : Act) (acts : List Act) :
    founders (act :: acts) =
      if act.calls then 0 else founders acts + [act].countP Act.subscribes := by
  cases hcalls : act.calls <;> simp [founders, hcalls, List.countP_cons]

/-- A further act may bring a founder only if there was no call before it. -/
theorem founders_concat (acts : List Act) (act : Act) :
    founders (acts ++ [act]) =
      if acts.any Act.calls then founders acts else (acts ++ [act]).countP Act.subscribes := by
  induction acts with
  | nil => cases act <;> simp [founders, Act.calls, Act.subscribes]
  | cons first rest ih =>
    rw [List.cons_append, founders_cons, founders_cons, ih, List.any_cons]
    cases hfirst : first.calls with
    | true => rfl
    | false => cases rest.any Act.calls <;> simp [List.countP_cons]

/-- Before the first call every subscriber is a founder. -/
theorem founders_of_not_called (h : acts.any Act.calls = false) :
    founders acts = acts.countP Act.subscribes := by
  cases acts using List.reverseRecOn with
  | nil => rfl
  | append_singleton before last =>
    rw [List.any_append, Bool.or_eq_false_iff] at h
    rw [founders_concat, h.1, if_neg Bool.false_ne_true]

/-- An act by which nobody joins adds no founder. -/
theorem founders_concat_of_not_subscribes (h : act.subscribes = false) :
    founders (acts ++ [act]) = founders acts := by
  rw [founders_concat]
  cases hcalled : acts.any Act.calls with
  | true => rfl
  | false => simp [founders_of_not_called hcalled, h]

/-- A subscriber has looked since the first call if it had before, or if a call came before this
look of its. -/
theorem looked_concat (acts : List Act) (act : Act) (subscriber : Nat) :
    looked (acts ++ [act]) subscriber =
      (looked acts subscriber || acts.any Act.calls && act.isLookOf subscriber) := by
  induction acts with
  | nil => cases act <;> simp [looked, Act.calls, Act.isLookOf]
  | cons first rest ih => cases hfirst : first.calls <;> simp_all [looked, Bool.or_assoc]

/-- Nobody has looked since the first call before there was one. -/
theorem looked_of_not_called (h : acts.any Act.calls = false) (subscriber : Nat) :
    looked acts subscriber = false := by
  have hcalls : ∀ act ∈ acts, (!act.calls) = true := by simpa using h
  rw [looked, List.dropWhile_eq_nil_iff.mpr hcalls, List.any_nil]

/-- A subscriber finds the message once more only by a look that finds it. -/
theorem notices_concat (acts : List Act) (act : Act) (subscriber : Nat) :
    notices (acts ++ [act]) subscriber =
      notices acts subscriber + if act = .look subscriber .message then 1 else 0 := by
  rw [notices, notices, List.count_append, List.count_singleton]
  congr 1
  simp only [beq_iff_eq]

end

/-! ## What the signal knows -/

/-- How the state of a signal follows from what was done with it. -/
structure Tracks (acts : List Act) (s : Shutdown) : Prop where
  called : s.called = acts.any Act.calls
  capacity : s.channel.capacity = 1
  senders : s.channel.senders = s.handles.count true
  subscribers : s.channel.positions.length = acts.countP Act.subscribes
  /-- One message is sent, by the first call and to the founders. -/
  sent : s.channel.sent = if acts.any Act.calls ∧ 0 < founders acts then 1 else 0
  /-- Founders have what they found behind them, and the others everything. -/
  position : ∀ r,
    s.channel.position r = if r < founders acts then notices acts r else s.channel.sent
  found : ∀ r, notices acts r = if r < founders acts ∧ looked acts r = true then 1 else 0

/-- A new signal knows that nothing was done with it. -/
theorem tracks_fresh : Tracks [] {} := by
  constructor <;> simp [founders, notices, looked, Broadcast.position]

/-- A handle that is held is among the handles and not let go. -/
theorem getElem?_of_holds {s : Shutdown} {handle : Nat} (h : s.holds handle = true) :
    s.handles[handle]? = some true := by
  rw [holds, List.getD] at h
  cases hget : s.handles[handle]? <;> simp_all

/-- Is the message still to be found by a subscriber? -/
def Due (acts : List Act) (r : Nat) : Prop :=
  acts.any Act.calls = true ∧ r < founders acts ∧ notices acts r = 0

instance (acts : List Act) : DecidablePred (Due acts) :=
  fun _ => inferInstanceAs (Decidable (_ ∧ _))

namespace Tracks

variable {acts : List Act} {s t : Shutdown} {act : Act}

/-- What is due has been sent, and is not behind the subscriber. -/
theorem due_iff (h : Tracks acts s) (r : Nat) :
    Due acts r ↔ s.channel.position r < s.channel.sent := by
  rw [h.position r, h.sent, Due]
  by_cases hfounder : r < founders acts
  · cases acts.any Act.calls with
    | true =>
      have : 0 < founders acts := Nat.zero_lt_of_lt hfounder
      simp [hfounder, this]
    | false => simp
  · simp [hfounder]

/-- A subscriber finds the message if it is due, and otherwise nothing that changes the signal. -/
theorem look_eq (h : Tracks acts s) (r : Nat) :
    s.look r =
      if Due acts r then (.message, { s with channel := s.channel.advance r 1 })
      else (if true ∈ s.handles then .empty else .closed, s) := by
  by_cases hdue : Due acts r
  · have hunsent := (h.due_iff r).mp hdue
    have hfirst : s.channel.position r = 0 := by
      rw [h.position r, if_pos hdue.2.1, hdue.2.2]
    have hdropped : s.channel.dropped = 0 := by
      rw [Broadcast.dropped, h.capacity, h.sent]
      split <;> rfl
    have hreceived := Broadcast.receive_of_kept hunsent (by omega)
    rw [hfirst] at hreceived
    rw [if_pos hdue, look, hreceived]
  · have hbehind : s.channel.sent ≤ s.channel.position r :=
      Nat.not_lt.mp (mt (h.due_iff r).mpr hdue)
    have hheld : s.channel.senders = 0 ↔ ¬ true ∈ s.handles := by
      rw [h.senders, List.count_eq_zero]
    rw [if_neg hdue, look, Broadcast.receive_of_le hbehind]
    by_cases hany : true ∈ s.handles <;> simp [hheld, hany]

/-- What is due was not found before, and nothing was found that is not due any more. -/
theorem notices_pos (h : Tracks acts s) {r : Nat} (hcalled : acts.any Act.calls = true)
    (hfounder : r < founders acts) (hdue : ¬ Due acts r) : notices acts r = 1 := by
  have hsome : notices acts r ≠ 0 := fun hnone => hdue ⟨hcalled, hfounder, hnone⟩
  have hfound := h.found r
  split at hfound
  · exact hfound
  · exact absurd hfound hsome

/-- An act that is no look and no first call, and adds no subscriber, tells the channel nothing. -/
theorem quiet (h : Tracks acts s) (hcalls : act.calls = true → acts.any Act.calls = true)
    (hsubscribes : act.subscribes = false) (hlooks : ∀ r, act.isLookOf r = false)
    (handles : List Bool) :
    Tracks (acts ++ [act])
      { s with
        channel := { s.channel with senders := handles.count true }
        handles := handles } := by
  have hfounders : founders (acts ++ [act]) = founders acts :=
    founders_concat_of_not_subscribes hsubscribes
  have hcalled : (acts ++ [act]).any Act.calls = acts.any Act.calls := by
    cases hact : act.calls <;> simp_all
  have hnotices (r : Nat) : notices (acts ++ [act]) r = notices acts r := by
    have hother : act ≠ .look r .message := by
      rintro rfl
      simpa [Act.isLookOf] using hlooks r
    rw [notices_concat, if_neg hother, Nat.add_zero]
  constructor
  case called => exact h.called.trans hcalled.symm
  case capacity => exact h.capacity
  case senders => rfl
  case subscribers => simpa [hsubscribes] using h.subscribers
  case sent =>
    rw [hcalled, hfounders]
    exact h.sent
  case position =>
    simp only [hfounders, hnotices]
    exact h.position
  case found =>
    simp only [hfounders, hnotices, looked_concat, hlooks, Bool.and_false, Bool.or_false]
    exact h.found

/-- Another handle changes nothing but the number of senders. -/
theorem clone (h : Tracks acts s) (handle : Nat) : Tracks (acts ++ [.clone handle]) s.clone := by
  have hclone : s.clone =
      { s with
        channel := { s.channel with senders := (s.handles ++ [true]).count true }
        handles := s.handles ++ [true] } := by
    simp [Shutdown.clone, Broadcast.addSender, h.senders]
  rw [hclone]
  exact h.quiet (by simp [Act.calls]) rfl (fun _ => rfl) _

/-- A handle that is let go changes nothing but the number of senders. -/
theorem drop (h : Tracks acts s) {handle : Nat} (hheld : s.holds handle = true) :
    Tracks (acts ++ [.drop handle]) (s.drop handle) := by
  obtain ⟨hlength, hget⟩ := List.getElem?_eq_some_iff.mp (getElem?_of_holds hheld)
  have hdrop : s.drop handle =
      { s with
        channel := { s.channel with senders := (s.handles.set handle false).count true }
        handles := s.handles.set handle false } := by
    simp [Shutdown.drop, hheld, Broadcast.dropSender, h.senders, List.count_set, hlength, hget]
  rw [hdrop]
  exact h.quiet (by simp [Act.calls]) rfl (fun _ => rfl) _

/-- Before the first call nothing was sent and nothing was found. -/
theorem untold (h : Tracks acts s) (hcalled : acts.any Act.calls = false) :
    s.channel.sent = 0 ∧ ∀ r, notices acts r = 0 := by
  constructor
  · rw [h.sent, hcalled, if_neg (by simp)]
  · intro r
    rw [h.found, looked_of_not_called hcalled, if_neg (by simp)]

/-- A new subscriber has everything behind it that was sent so far. -/
theorem subscribe (h : Tracks acts s) (handle : Nat) :
    Tracks (acts ++ [.subscribe handle]) s.subscribe := by
  have hjoined : (acts ++ [Act.subscribe handle]).countP Act.subscribes =
      acts.countP Act.subscribes + 1 := List.countP_append
  have hcalled : (acts ++ [Act.subscribe handle]).any Act.calls = acts.any Act.calls := by
    simp [Act.calls]
  have hnotices (r : Nat) : notices (acts ++ [.subscribe handle]) r = notices acts r := by
    simp [notices_concat]
  have hlooked (r : Nat) : looked (acts ++ [.subscribe handle]) r = looked acts r := by
    simp [looked_concat, Act.isLookOf]
  have hfounders := founders_concat acts (.subscribe handle)
  constructor
  case called => exact h.called.trans hcalled.symm
  case capacity => exact h.capacity
  case senders => exact h.senders
  case subscribers => simp [hjoined, Shutdown.subscribe, Broadcast.subscribe, h.subscribers]
  case sent =>
    refine h.sent.trans ?_
    cases hany : acts.any Act.calls <;> simp [hfounders, hcalled, hany]
  case position =>
    intro r
    refine Broadcast.position_subscribe.trans ((h.position r).trans ?_)
    rw [hnotices]
    cases hany : acts.any Act.calls with
    | true => rw [hfounders, hany, if_pos rfl]; rfl
    | false =>
      obtain ⟨hsent, hnone⟩ := h.untold hany
      simp [Shutdown.subscribe, Broadcast.subscribe, hsent, hnone]
  case found =>
    intro r
    rw [hnotices, hlooked, h.found r]
    cases hany : acts.any Act.calls with
    | true => rw [hfounders, hany, if_pos rfl]
    | false => simp [looked_of_not_called hany]

/-- Only the first call sends the message, and it goes to the founders. -/
theorem call (h : Tracks acts s) (handle : Nat) : Tracks (acts ++ [.call handle]) s.call := by
  cases hcalled : acts.any Act.calls with
  | true =>
    have hagain : s.call =
        { s with channel := { s.channel with senders := s.handles.count true } } := by
      rw [Shutdown.call, if_pos (h.called.trans hcalled), ← h.senders]
    rw [hagain]
    exact h.quiet (fun _ => hcalled) rfl (fun _ => rfl) _
  | false =>
    have hall : founders acts = s.channel.positions.length :=
      (founders_of_not_called hcalled).trans h.subscribers.symm
    have hfounders : founders (acts ++ [.call handle]) = s.channel.positions.length :=
      (founders_concat_of_not_subscribes rfl).trans hall
    have hnotices (r : Nat) : notices (acts ++ [.call handle]) r = notices acts r := by
      simp [notices_concat]
    have hany : (acts ++ [Act.call handle]).any Act.calls = true := by simp [Act.calls]
    rw [Shutdown.call, if_neg (by simp [h.called, hcalled]), Broadcast.send_eq]
    constructor
    case called => exact hany.symm
    case capacity => exact h.capacity
    case senders => exact h.senders
    case subscribers => simpa [Act.subscribes] using h.subscribers
    case sent => simp [hany, hfounders, (h.untold hcalled).1]
    case position =>
      intro r
      rw [hfounders, hnotices]
      by_cases hr : r < s.channel.positions.length
      · rw [if_pos hr, Broadcast.position_of_lt hr, h.position r, hall, if_pos hr]
      · rw [if_neg hr]
        exact Broadcast.position_of_le (Nat.not_lt.mp hr)
    case found =>
      intro r
      rw [hnotices, h.found r, looked_concat, hfounders, hall]
      simp [Act.isLookOf]

section

variable {r : Nat} {receipt : Receipt}

/-- A look adds no founder. -/
theorem founders_look : founders (acts ++ [.look r receipt]) = founders acts :=
  founders_concat_of_not_subscribes rfl

/-- A look is no call. -/
theorem called_look : (acts ++ [Act.look r receipt]).any Act.calls = acts.any Act.calls := by
  simp [Act.calls]

/-- A look adds no subscriber. -/
theorem countP_subscribes_look :
    (acts ++ [Act.look r receipt]).countP Act.subscribes = acts.countP Act.subscribes :=
  List.countP_append

/-- A look at a message that is due takes it. -/
theorem take (h : Tracks acts s) (hr : r < s.channel.positions.length) (hdue : Due acts r) :
    Tracks (acts ++ [.look r .message]) { s with channel := s.channel.advance r 1 } := by
  have hnotices (other : Nat) : notices (acts ++ [.look r .message]) other =
      if other = r then 1 else notices acts other := by
    rw [notices_concat]
    by_cases heq : other = r
    · rw [if_pos heq, heq, hdue.2.2, if_pos rfl]
    · rw [if_neg heq, if_neg (by simpa using Ne.symm heq), Nat.add_zero]
  constructor
  case called => exact h.called.trans called_look.symm
  case capacity => exact h.capacity
  case senders => exact h.senders
  case subscribers =>
    exact List.length_set.trans (h.subscribers.trans countP_subscribes_look.symm)
  case sent =>
    rw [called_look, founders_look]
    exact h.sent
  case position =>
    intro other
    refine (Broadcast.position_advance hr).trans ?_
    rw [founders_look, hnotices, h.position other]
    by_cases heq : other = r
    · rw [if_pos heq, if_pos heq, heq, if_pos hdue.2.1]
    · rw [if_neg heq, if_neg heq]
      rfl
  case found =>
    intro other
    rw [founders_look, hnotices, looked_concat, hdue.1, Bool.true_and]
    by_cases heq : other = r
    · simp [heq, hdue.2.1, Act.isLookOf]
    · simp [heq, h.found other, Act.isLookOf, Ne.symm heq]

/-- A look finds nothing when nothing is due, and leaves the signal as it was. -/
theorem miss (h : Tracks acts s) (hdue : ¬ Due acts r) (hreceipt : receipt ≠ .message) :
    Tracks (acts ++ [.look r receipt]) s := by
  have hnotices (other : Nat) :
      notices (acts ++ [.look r receipt]) other = notices acts other := by
    simp [notices_concat, hreceipt]
  constructor
  case called => exact h.called.trans called_look.symm
  case capacity => exact h.capacity
  case senders => exact h.senders
  case subscribers => exact h.subscribers.trans countP_subscribes_look.symm
  case sent =>
    rw [called_look, founders_look]
    exact h.sent
  case position =>
    intro other
    rw [founders_look, hnotices]
    exact h.position other
  case found =>
    intro other
    rw [founders_look, hnotices, looked_concat]
    by_cases hlooks : acts.any Act.calls = true ∧ other < founders acts ∧ other = r
    · obtain ⟨hany, hfounder, rfl⟩ := hlooks
      rw [h.notices_pos hany hfounder hdue]
      simp [hany, hfounder, Act.isLookOf]
    · rw [h.found other]
      simp only [Act.isLookOf]
      grind

/-- A look is accounted for by what it finds. -/
theorem look (h : Tracks acts s) (hr : r < s.channel.positions.length) :
    Tracks (acts ++ [.look r (s.look r).1]) (s.look r).2 := by
  rw [h.look_eq r]
  by_cases hdue : Due acts r
  · rw [if_pos hdue]
    exact h.take hr hdue
  · rw [if_neg hdue]
    exact h.miss hdue (by split <;> simp)

end

/-- The signal goes on knowing what was done with it, whatever is done. -/
theorem step (h : Tracks acts s) (hstep : s.step? act = some t) : Tracks (acts ++ [act]) t := by
  cases act with
  | clone handle =>
    obtain ⟨-, ⟨⟩⟩ := Option.ite_none_right_eq_some.mp hstep
    exact h.clone handle
  | subscribe handle =>
    obtain ⟨-, ⟨⟩⟩ := Option.ite_none_right_eq_some.mp hstep
    exact h.subscribe handle
  | call handle =>
    obtain ⟨-, ⟨⟩⟩ := Option.ite_none_right_eq_some.mp hstep
    exact h.call handle
  | drop handle =>
    obtain ⟨hheld, ⟨⟩⟩ := Option.ite_none_right_eq_some.mp hstep
    exact h.drop hheld
  | look r receipt =>
    obtain ⟨⟨hr, rfl⟩, ⟨⟩⟩ := Option.ite_none_right_eq_some.mp hstep
    exact h.look hr

end Tracks

/-! ## Runs -/

section

variable {acts : List Act} {s : Shutdown}

/-- Acts that follow others start where those have ended. -/
theorem after?_append (s : Shutdown) (acts more : List Act) :
    s.after? (acts ++ more) = (s.after? acts).bind (after? · more) :=
  List.foldlM_append

/-- The signal knows what was done with it. -/
theorem tracks_of_after? (h : ({} : Shutdown).after? acts = some s) : Tracks acts s := by
  induction acts using List.reverseRecOn generalizing s with
  | nil =>
    cases h
    exact tracks_fresh
  | append_singleton acts act ih =>
    rw [after?_append] at h
    obtain ⟨before, hbefore, hlast⟩ := Option.bind_eq_some_iff.mp h
    exact (ih hbefore).step (by simpa [after?] using hlast)

/-- What a subscriber found is what the signal had for it at that time. -/
theorem look_of_mem {r : Nat} {receipt : Receipt} (h : ({} : Shutdown).after? acts = some s)
    (hmem : .look r receipt ∈ acts) :
    ∃ before past, ({} : Shutdown).after? before = some past ∧ (past.look r).1 = receipt := by
  obtain ⟨before, later, rfl⟩ := List.append_of_mem hmem
  rw [after?_append] at h
  obtain ⟨past, hpast, hrest⟩ := Option.bind_eq_some_iff.mp h
  obtain ⟨next, hstep, -⟩ := Option.bind_eq_some_iff.mp hrest
  exact ⟨before, past, hpast, (Option.ite_none_right_eq_some.mp hstep).1.2⟩

/-- What holds of a signal and its subscribers after some acts. -/
structure Delivered (acts : List Act) (s : Shutdown) : Prop where
  /-- All handles tell whether shutdown was called through any of them. -/
  told : ∀ handle, s.holds handle = true → s.isCalled handle = some (acts.any Act.calls)
  /-- A founder that looked after the call found the message once. Nobody else found it. -/
  once : ∀ r, notices acts r = if r < founders acts ∧ looked acts r = true then 1 else 0
  /-- A subscriber finds the message if it is due, and the channel closed only if it is not due
  and no handle is left. -/
  finds : ∀ r, (s.look r).1 =
    if Due acts r then .message else if true ∈ s.handles then .empty else .closed
  keeps_up : ∀ r missed, .look r (.lagged missed) ∉ acts

/-- Whatever is done with a signal, its message goes once to those who subscribed before the first
call, and to nobody else. -/
theorem notice_is_delivered_once (h : ({} : Shutdown).after? acts = some s) : Delivered acts s := by
  have htracks := tracks_of_after? h
  constructor
  case told =>
    intro handle hheld
    rw [isCalled, if_pos hheld, htracks.called]
  case once => exact htracks.found
  case finds =>
    intro r
    rw [htracks.look_eq r]
    split <;> rfl
  case keeps_up =>
    intro r missed hmem
    obtain ⟨before, past, hpast, hlook⟩ := look_of_mem h hmem
    rw [(tracks_of_after? hpast).look_eq r] at hlook
    split at hlook
    · cases hlook
    · split at hlook <;> cases hlook

end

/-- The second subscriber joins after the call, which is made through both handles. -/
theorem founder_finds_one_notice :
    let acts : List Act := [.subscribe 0, .look 0 .empty, .clone 0, .call 1, .call 0, .subscribe 0,
      .look 1 .empty, .drop 0, .drop 1, .look 1 .closed, .look 0 .message, .look 0 .closed]
    ∃ s, ({} : Shutdown).after? acts = some s ∧ Delivered acts s ∧
      notices acts 0 = 1 ∧ notices acts 1 = 0 :=
  ⟨_, rfl, notice_is_delivered_once rfl, by decide, by decide⟩

end HealthWatch.Shutdown
