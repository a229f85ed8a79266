/-!
# Broadcast channels

A channel with any number of senders and receivers. A message goes to all receivers that are
subscribed when it is sent. The channel keeps only the latest messages, as many as its capacity: a
receiver that was too slow learns how many messages it has missed, and goes on with the oldest one
that is kept. A receiver finds the channel closed when no sender is left and it has taken what was
sent.

Messages carry nothing here, so a channel only counts them.
-/

set_option autoImplicit false

namespace HealthWatch

/-- What a receiver finds when it looks. -/
inductive Receipt where
  | message
  /-- So many messages were dropped before the receiver took them. -/
  | lagged (missed : Nat)
  | empty
  | closed
deriving Repr, DecidableEq

/-- A channel, of which only the numbers of messages are kept. -/
structure Broadcast where
  /-- How many messages are kept. -/
  capacity : Nat
  /-- How many messages were sent. -/
  sent : Nat := 0
  senders : Nat := 1
  /-- For each receiver, how many messages are behind it. -/
  positions : List Nat := []
deriving Repr, Inhabited

namespace Broadcast

/-- Adds a receiver, to which nothing goes that was sent before. -/
def subscribe (c : Broadcast) : Broadcast :=
  { c with positions := c.positions ++ [c.sent] }

/-- Adds a sender. -/
def addSender (c : Broadcast) : Broadcast :=
  { c with senders := c.senders + 1 }

/-- Lets a sender go. -/
def dropSender (c : Broadcast) : Broadcast :=
  { c with senders := c.senders - 1 }

/-- Sends a message, if there is anyone to receive it. -/
def send (c : Broadcast) : Broadcast :=
  if c.positions.isEmpty then c else { c with sent := c.sent + 1 }

/-- How many messages were dropped. -/
def dropped (c : Broadcast) : Nat :=
  c.sent - c.capacity

/-- Puts so many messages behind a receiver. -/
def advance (c : Broadcast) (receiver position : Nat) : Broadcast :=
  { c with positions := c.positions.set receiver position }

/-- How many messages are behind a receiver. -/
def position (c : Broadcast) (receiver : Nat) : Nat :=
  c.positions.getD receiver c.sent

/-- What a receiver finds, and the channel after it looked. -/
def receive (c : Broadcast) (receiver : Nat) : Receipt × Broadcast :=
  if c.sent ≤ c.position receiver then (if c.senders = 0 then .closed else .empty, c)
  else if c.position receiver < c.dropped then
    (.lagged (c.dropped - c.position receiver), c.advance receiver c.dropped)
  else (.message, c.advance receiver (c.position receiver + 1))

variable {c : Broadcast} {receiver : Nat}

/-- One who has not joined is thought of as having everything behind it. -/
theorem position_of_le (h : c.positions.length ≤ receiver) : c.position receiver = c.sent := by
  rw [position, List.getD, List.getElem?_eq_none h, Option.getD_none]

/-- Those who did not join yet count like those who join now. -/
theorem position_subscribe : c.subscribe.position receiver = c.position receiver := by
  rw [position, position, List.getD, List.getD, subscribe, List.getElem?_append]
  split
  · rfl
  · rename_i h
    rw [List.getElem?_eq_none (Nat.not_lt.mp h), List.getElem?_singleton]
    split <;> rfl

/-- To send changes only how many messages were sent. -/
theorem send_eq :
    c.send = { c with sent := if 0 < c.positions.length then c.sent + 1 else c.sent } := by
  obtain ⟨capacity, sent, senders, positions⟩ := c
  cases positions <;> rfl

/-- Those who joined do not depend on how many messages were sent. -/
theorem position_of_lt (h : receiver < c.positions.length) (sent : Nat) :
    { c with sent := sent }.position receiver = c.position receiver := by
  simp [position, List.getD, h]

/-- Only the one who is advanced changes its place in the channel. -/
theorem position_advance {other position : Nat} (h : receiver < c.positions.length) :
    (c.advance receiver position).position other =
      if other = receiver then position else c.position other := by
  rw [Broadcast.position, Broadcast.position, advance, List.getD, List.getD, List.getElem?_set]
  by_cases heq : other = receiver
  · rw [if_pos heq.symm, if_pos heq, if_pos h, Option.getD_some]
  · rw [if_neg (Ne.symm heq), if_neg heq]

/-- One who has everything behind it waits, or finds the channel closed if no sender is left. -/
theorem receive_of_le (h : c.sent ≤ c.position receiver) :
    c.receive receiver = (if c.senders = 0 then .closed else .empty, c) :=
  if_pos h

/-- One whose next message is still kept receives it and moves on by one. -/
theorem receive_of_kept (h : c.position receiver < c.sent)
    (hkept : c.dropped ≤ c.position receiver) :
    c.receive receiver = (.message, c.advance receiver (c.position receiver + 1)) := by
  rw [receive, if_neg (Nat.not_le.mpr h), if_neg (Nat.not_lt.mpr hkept)]

end Broadcast

end HealthWatch
