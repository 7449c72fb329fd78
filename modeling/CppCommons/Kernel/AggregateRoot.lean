import CppCommons.Cxx.StandardLibrary
import CppCommons.Kernel.Identity

/-!
# Aggregate roots

An aggregate collects the events that its command methods record, and hands the
collected ones over when they are pulled.  Every event is handed over once, in
the order of the records.
-/

namespace CppCommons
namespace Kernel

open Cxx

structure DomainEvent where
  eventId : UUID
  eventType : Bytes
  occurredAt : Nanoseconds
  correlationId : Bytes := []
deriving DecidableEq

/-- What the constructor of an event draws: the halves of its id and the time. -/
structure EventDraw where
  first : UInt64
  second : UInt64
  now : Nanoseconds
deriving DecidableEq

def DomainEvent.make (eventType : Bytes) (draw : EventDraw) : DomainEvent where
  eventId := UUID.generate draw.first draw.second
  eventType := eventType
  occurredAt := draw.now

structure AggregateRoot (TId : Type) where
  id : TId
  pendingEvents : List DomainEvent := []
deriving DecidableEq

namespace AggregateRoot

variable {TId : Type}

def hasPendingEvents (root : AggregateRoot TId) : Bool :=
  !root.pendingEvents.isEmpty

def pullEvents (root : AggregateRoot TId) : List DomainEvent × AggregateRoot TId :=
  (root.pendingEvents, { root with pendingEvents := [] })

def record (root : AggregateRoot TId) (event : DomainEvent) : AggregateRoot TId :=
  { root with pendingEvents := root.pendingEvents ++ [event] }

end AggregateRoot

/-!
## Delivery

An aggregate with the events handed over so far.  The history, what was handed over
and then what is pending, only grows at its end.
-/

structure Delivery (TId : Type) where
  root : AggregateRoot TId
  pulled : List DomainEvent := []

namespace Delivery

variable {TId : Type}

def pull (d : Delivery TId) : Delivery TId where
  root := d.root.pullEvents.snd
  pulled := d.pulled ++ d.root.pullEvents.fst

/-- The events recorded so far, those handed over first. -/
def history (d : Delivery TId) : List DomainEvent :=
  d.pulled ++ d.root.pendingEvents

@[simp] theorem history_pull (d : Delivery TId) : d.pull.history = d.history := by
  simp [history, pull, AggregateRoot.pullEvents]

@[simp] theorem hasPendingEvents_pull (d : Delivery TId) :
    d.pull.root.hasPendingEvents = false :=
  rfl

@[simp] theorem history_record (d : Delivery TId) (event : DomainEvent) :
    { d with root := d.root.record event }.history = d.history ++ [event] := by
  simp [history, AggregateRoot.record]

end Delivery

end Kernel
end CppCommons
