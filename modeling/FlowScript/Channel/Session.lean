/-
A client at work. Its consumer is a task of its own, which goes on between
the calls to the client and while a call to stop waits for it. The task takes
messages until it finds the end of the channel or is told to shut down; when
more than one of these is ready it may take any, so a session goes on by
events, and a `Turn` says which branch the task takes. The calls themselves
are those of `Client`.
-/
import FlowScript.Channel.Client

namespace FlowScript

namespace Channel

/-- Hands a message to the transport as if it came from a broker. -/
def Client.inject {κ : Type} (c : Client κ Loopback) (message : Message) :
    Except DeliveryFault Unit × Client κ Loopback :=
  let (result, mailbox) := c.transport.inject c.mailbox message
  (result, { c with mailbox })

/-- Where the task of a consumer is. -/
inductive Task where
  /-- The client has not started one. -/
  | absent
  /-- It waits for a message, for the end of the channel or for the shutdown. -/
  | waiting
  /-- It was told to shut down, and takes what is left. -/
  | draining
  /-- It has returned, or a handler has failed in it. -/
  | ended
deriving DecidableEq, Repr

/-- What a task does next. -/
inductive Turn where
  /-- It takes a message and calls its handlers. -/
  | message
  /-- It finds that nobody can send any more, and returns. -/
  | channelEnd
  /-- It notices that it is told to shut down, and closes the channel. -/
  | shutdown
  /-- It finds nothing left after that, and returns. -/
  | drained
deriving DecidableEq, Repr

/-- A call to a client or to its transport. -/
inductive Request (κ : Type) where
  | subscribe (s : Subscription κ)
  | start (runtime : Bool)
  | publish (message : Message)
  | inject (message : Message)
  | stop

/-- What happens in a session. -/
inductive Event (κ : Type) where
  | request (r : Request κ)
  | turn (t : Turn)
  /-- The task has ended, and the call to stop that waits for it returns. -/
  | joined

/-- A client over the loopback transport, with its consumer. -/
structure Session (κ : Type) where
  client : Client κ Loopback
  task : Task
  /-- What the transport said to the call to stop that waits for the task. -/
  stopping : Option (Except Fault Unit)

namespace Session

variable {κ : Type}

def ofClient (client : Client κ Loopback) : Session κ := { client, task := .absent, stopping := none }

/-- The session without the receiver of its mailbox, which the task owns. -/
def endTask (σ : Session κ) : Session κ :=
  { σ with client := { σ.client with mailbox := σ.client.mailbox.close }, task := .ended }

/-- What a call does at once. A call to stop a running client then waits for the task. -/
def serve (σ : Session κ) : Request κ → Session κ
  | .subscribe s => { σ with client := (σ.client.subscribe Loopback.transport s).2 }
  | .start runtime =>
    match σ.client.start Loopback.transport runtime with
    | (.ok (), client) => { σ with client, task := .waiting }
    | (.error _, client) => { σ with client }
  | .publish message => { σ with client := (σ.client.publish Loopback.transport message).2 }
  | .inject message => { σ with client := (σ.client.inject message).2 }
  | .stop =>
    match σ.client.phase with
    | .running =>
      let (result, client) := σ.client.disconnect Loopback.transport
      { σ with client, stopping := some result }
    | _ => { σ with client := (σ.client.stop Loopback.transport 0).2 }

/-- Whether the task can take a turn. The channel ends when the transport has
let go of it, and the task is told to shut down by a call to stop. -/
def ready (σ : Session κ) : Turn → Bool
  | .message => (σ.task == .waiting || σ.task == .draining) && !σ.client.mailbox.queue.isEmpty
  | .channelEnd =>
    σ.task == .waiting && !σ.client.transport.connected && σ.client.mailbox.queue.isEmpty
  | .shutdown => σ.task == .waiting && σ.stopping.isSome
  | .drained => σ.task == .draining && σ.client.mailbox.queue.isEmpty

def take (σ : Session κ) : Turn → Session κ
  | .message =>
    let client := σ.client.consume
    { σ with client, task := if client.consumerFailed then .ended else σ.task }
  | .channelEnd => σ.endTask
  | .shutdown =>
    let mailbox := { σ.client.mailbox with isOpen := false }
    { σ with client := { σ.client with mailbox }, task := .draining }
  | .drained => σ.endTask

/-- The session after an event, if the event can happen. No other call is
made while a call to stop waits. -/
def step (σ : Session κ) : Event κ → Option (Session κ)
  | .request r => if σ.stopping.isSome then none else some (σ.serve r)
  | .turn t => if σ.ready t then some (σ.take t) else none
  | .joined => if σ.stopping.isSome && σ.task == .ended then some { σ with stopping := none } else none

/-- What a call to stop returns at an event, if one returns there: at once if
the client does not run, and else when it has been waited for. -/
def stopResult? (σ : Session κ) : Event κ → Option (Except Fault Unit)
  | .request .stop =>
    if σ.client.phase = .running then none else some (σ.client.stop Loopback.transport 0).1
  | .joined =>
    if σ.client.consumerFailed then some (.error .consumerFailed) else σ.stopping
  | _ => none

end Session

end Channel

end FlowScript
