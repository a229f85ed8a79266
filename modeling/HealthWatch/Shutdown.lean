import HealthWatch.Broadcast

/-!
# Shutdown notices

A signal with any number of handles, which share one flag and one channel: what is done through a
handle is done for all of them. The first call for shutdown sets the flag and sends a message to
everyone subscribed by then; later calls send nothing. The channel keeps a single message, and is
closed for its receivers when no handle is left.
-/

set_option autoImplicit false

namespace HealthWatch

/-- A signal and its handles. -/
structure Shutdown where
  /-- Has shutdown been called? -/
  called : Bool := false
  channel : Broadcast := { capacity := 1 }
  /-- For each handle ever made, whether it is still held. -/
  handles : List Bool := [true]
deriving Repr, Inhabited

namespace Shutdown

/-- Is the handle still held? -/
def holds (s : Shutdown) (handle : Nat) : Bool :=
  s.handles.getD handle false

/-- Whether shutdown has been called, as a handle tells that is still held. -/
def isCalled (s : Shutdown) (handle : Nat) : Option Bool :=
  if s.holds handle then some s.called else none

/-- Makes another handle. -/
def clone (s : Shutdown) : Shutdown :=
  { s with channel := s.channel.addSender, handles := s.handles ++ [true] }

/-- Adds a subscriber; nothing that was sent before is due to it. -/
def subscribe (s : Shutdown) : Shutdown :=
  { s with channel := s.channel.subscribe }

/-- Calls for shutdown. Only the first call sends a message. -/
def call (s : Shutdown) : Shutdown :=
  if s.called then s else { s with called := true, channel := s.channel.send }

/-- Lets go of a handle. -/
def drop (s : Shutdown) (handle : Nat) : Shutdown :=
  if s.holds handle then
    { s with channel := s.channel.dropSender, handles := s.handles.set handle false }
  else s

/-- Lets go of all handles. -/
def release (s : Shutdown) : Shutdown :=
  (List.range s.handles.length).foldl drop s

/-- What a subscriber finds, and the signal after it looked. -/
def look (s : Shutdown) (subscriber : Nat) : Receipt × Shutdown :=
  let (receipt, channel) := s.channel.receive subscriber
  (receipt, { s with channel := channel })

end Shutdown

end HealthWatch
