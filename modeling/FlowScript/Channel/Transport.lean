/-
Connections to a broker. A transport is a state with four calls, each of
which may fail and may put messages into the client's mailbox. The loopback
transport hands what is published straight back to whoever has subscribed;
a refusing transport fails the calls it was told to fail.
-/
import FlowScript.Channel.Filter
import FlowScript.Channel.Mailbox

namespace FlowScript

namespace Channel

inductive Fault where
  | noCapacity
  | noRuntime
  | alreadyStarted
  | notRunning
  | stopped
  | consumerFailed
  | notConnected
  | queueClosed
  /-- The transport gives a reason of its own. -/
  | refused (reason : String)
deriving DecidableEq, Repr

def Fault.message : Fault → String
  | .noCapacity => "queue capacity must be > 0"
  | .noRuntime => "no tokio runtime: nothing runs tasks here"
  | .alreadyStarted => "client already started"
  | .notRunning => "client is not running"
  | .stopped => "client is stopped"
  | .consumerFailed => "consumer task failed: a handler panicked"
  | .notConnected => "loopback transport not connected"
  | .queueClosed => "inbound queue closed"
  | .refused reason => reason

/-- A call to a transport: whether it succeeds, and what it leaves behind. -/
abbrev Call (σ : Type) := σ → Mailbox → Except Fault Unit × σ × Mailbox

/-- A connection to a broker with states of type `σ`. -/
structure Transport (σ : Type) where
  connect : Call σ
  disconnect : Call σ
  publish : Message → Call σ
  subscribe : String → Call σ

structure Loopback where
  connected : Bool
  /-- The filters that were subscribed to, each once. -/
  filters : List String
  published : List Message
deriving DecidableEq, Repr

namespace Loopback

def idle : Loopback := { connected := false, filters := [], published := [] }

/-- Whether somebody has subscribed to a topic. -/
def wants (s : Loopback) (topic : String) : Bool := s.filters.any fun f => filterMatches f topic

/-- Hands in a message as if it came from a broker. One that nobody has
subscribed to is passed over. -/
def inject (s : Loopback) (m : Mailbox) (message : Message) : Except DeliveryFault Unit × Mailbox :=
  if !s.connected then (.error .closed, m)
  else if s.wants message.topic then m.deliver message
  else (.ok (), m)

/-- Publishing to a full queue succeeds: messages are dropped where they are received. -/
def publish (message : Message) : Call Loopback := fun s m =>
  if !s.connected then (.error .notConnected, s, m)
  else
    let s := { s with published := s.published ++ [message] }
    match s.inject m message with
    | (.error .closed, m) => (.error .queueClosed, s, m)
    | (_, m) => (.ok (), s, m)

def subscribe (filter : String) : Call Loopback := fun s m =>
  (.ok (), if s.filters.contains filter then s else { s with filters := s.filters ++ [filter] }, m)

/-- The transport that hands back what is published. -/
def transport : Transport Loopback :=
  { connect := fun s m => (.ok (), { s with connected := true }, m)
    disconnect := fun s m => (.ok (), { s with connected := false, filters := [] }, m)
    publish
    subscribe }

end Loopback

inductive CallName where
  | connect
  | disconnect
  | publish
  | subscribe
deriving DecidableEq, Repr

/-- A transport's state with the calls that are to fail, and the reasons. -/
structure Refusing (σ : Type) where
  inner : σ
  /-- Whether a connection was ever made. -/
  attached : Bool
  refusals : List (CallName × String)

namespace Refusing

variable {σ : Type}

def start (inner : σ) : Refusing σ := { inner, attached := false, refusals := [] }

def refuse (s : Refusing σ) (name : CallName) (reason : String) : Refusing σ :=
  { s with refusals := (name, reason) :: s.refusals }

def allow (s : Refusing σ) (name : CallName) : Refusing σ :=
  { s with refusals := s.refusals.filter fun p => p.1 != name }

/-- A call that fails if it is to fail, and is otherwise passed on. -/
def guarded (name : CallName) (call : Call σ) : Call (Refusing σ) := fun s m =>
  match s.refusals.lookup name with
  | some reason => (.error (.refused reason), s, m)
  | none =>
    let s := if name = .connect then { s with attached := true } else s
    let (result, inner, m) := call s.inner m
    (result, { s with inner }, m)

/-- A transport some of whose calls can be made to fail. -/
def transport (t : Transport σ) : Transport (Refusing σ) :=
  { connect := guarded .connect t.connect
    disconnect := guarded .disconnect t.disconnect
    publish := fun message => guarded .publish (t.publish message)
    subscribe := fun filter => guarded .subscribe (t.subscribe filter) }

/-- Delivers a message through the connection that was made, whatever the transport thinks of it. -/
def deliver (s : Refusing σ) (m : Mailbox) (message : Message) :
    Option (Except DeliveryFault Unit × Mailbox) :=
  if s.attached then some (m.deliver message) else none

end Refusing

end Channel

end FlowScript
