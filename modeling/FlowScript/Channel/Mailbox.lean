/-
The queue between a connection and the client: first in, first out, with
room for a fixed number of messages. Delivering never waits; a message that
finds the queue full is dropped and counted.
-/
namespace FlowScript

namespace Channel

structure Message where
  topic : String
  payload : String
deriving DecidableEq, Repr

inductive DeliveryFault where
  | full
  | closed
deriving DecidableEq, Repr

def DeliveryFault.message : DeliveryFault → String
  | .full => "inbound queue full, message dropped"
  | .closed => "inbound queue closed"

/-- A queue of messages that have come in. -/
structure Mailbox where
  capacity : Nat
  queue : List Message
  isOpen : Bool
  /-- How many messages found the queue full. -/
  dropped : Nat
deriving DecidableEq, Repr

namespace Mailbox

/-- A mailbox that nobody receives from yet. -/
def closed (capacity : Nat) : Mailbox := { capacity, queue := [], isOpen := false, dropped := 0 }

/-- The mailbox with an empty queue, ready to receive. -/
def reopen (m : Mailbox) : Mailbox := { m with queue := [], isOpen := true }

/-- The mailbox without its receiver; what was queued is lost. -/
def close (m : Mailbox) : Mailbox := { m with queue := [], isOpen := false }

def deliver (m : Mailbox) (message : Message) : Except DeliveryFault Unit × Mailbox :=
  if !m.isOpen then (.error .closed, m)
  else if m.capacity ≤ m.queue.length then (.error .full, { m with dropped := m.dropped + 1 })
  else (.ok (), { m with queue := m.queue ++ [message] })

/-- Whether a message that comes in is queued. -/
def hasRoom (m : Mailbox) : Bool := m.isOpen && decide (m.queue.length < m.capacity)

@[simp] theorem capacity_deliver (m : Mailbox) (message : Message) :
    (m.deliver message).2.capacity = m.capacity := by
  unfold deliver
  split <;> first | rfl | split <;> rfl

@[simp] theorem isOpen_deliver (m : Mailbox) (message : Message) :
    (m.deliver message).2.isOpen = m.isOpen := by
  unfold deliver
  split <;> first | rfl | split <;> rfl

theorem deliver_of_closed {m : Mailbox} (h : m.isOpen = false) (message : Message) :
    m.deliver message = (.error .closed, m) := by
  simp [deliver, h]

theorem queue_deliver (m : Mailbox) (message : Message) :
    (m.deliver message).2.queue = if m.hasRoom then m.queue ++ [message] else m.queue := by
  cases ho : m.isOpen <;> by_cases hl : m.capacity ≤ m.queue.length <;>
    simp [deliver, hasRoom, ho, hl, ← Nat.not_le]

theorem dropped_deliver (m : Mailbox) (message : Message) :
    (m.deliver message).2.dropped =
      if m.isOpen && decide (m.capacity ≤ m.queue.length) then m.dropped + 1 else m.dropped := by
  cases ho : m.isOpen <;> by_cases hl : m.capacity ≤ m.queue.length <;> simp [deliver, ho, hl]

theorem length_deliver_le {m : Mailbox} (h : m.queue.length ≤ m.capacity) (message : Message) :
    (m.deliver message).2.queue.length ≤ (m.deliver message).2.capacity := by
  rw [queue_deliver, capacity_deliver]
  split
  next hroom =>
    simp only [hasRoom, Bool.and_eq_true, decide_eq_true_eq] at hroom
    rw [List.length_append, List.length_singleton]
    omega
  next => exact h

end Mailbox

end Channel

end FlowScript
