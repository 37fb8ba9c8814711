/-
The client of a channel: idle, then running, then stopped for good. While it
runs, its consumer takes messages out of the mailbox one by one and calls the
handlers whose filters match, in the order of registration. What handlers do
is recorded in a log; a handler may also fail, which ends the consumer and
loses what is queued.
-/
import FlowScript.Channel.Transport

namespace FlowScript

namespace Channel

/-- A handler with the filter it is registered under. -/
structure Subscription (κ : Type) where
  filter : String
  /-- What the handler is called in the log. -/
  handler : κ
  /-- The messages at which the handler fails. -/
  fails : Message → Bool

/-- The stages in the life of a client. -/
inductive Phase where
  | idle
  | running
  | stopped
deriving DecidableEq, Repr

/-- A client over a transport with states of type `σ`, with handlers called by names of type `κ`. -/
structure Client (κ σ : Type) where
  transport : σ
  mailbox : Mailbox
  subscriptions : List (Subscription κ)
  phase : Phase
  consumerFailed : Bool
  log : List (κ × Message)

namespace Client

variable {κ σ : Type}

/-- An idle client whose mailbox has room for `capacity` messages. -/
def create (transport : σ) (capacity : Nat) : Except Fault (Client κ σ) :=
  if capacity = 0 then .error .noCapacity
  else .ok
    { transport, mailbox := .closed capacity, subscriptions := [], phase := .idle,
      consumerFailed := false, log := [] }

def isRunning (c : Client κ σ) : Bool := c.phase == .running

def dropped (c : Client κ σ) : Nat := c.mailbox.dropped

/-- The client after a call to its transport, and whether the call succeeded. -/
def call (c : Client κ σ) (call : Call σ) : Except Fault Unit × Client κ σ :=
  let (result, transport, mailbox) := call c.transport c.mailbox
  (result, { c with transport, mailbox })

/-- Subscribes to filters in turn, up to the first that is refused. -/
def subscribeAll (t : Transport σ) (c : Client κ σ) : List String → Except Fault Unit × Client κ σ
  | [] => (.ok (), c)
  | filter :: filters =>
    match c.call (t.subscribe filter) with
    | (.ok (), c) => subscribeAll t c filters
    | (.error e, c) => (.error e, c)

/-- Registers a handler. A running client asks its transport at once, and an
idle one when it starts. -/
def subscribe (t : Transport σ) (c : Client κ σ) (s : Subscription κ) : Except Fault Unit × Client κ σ :=
  let register := fun c : Client κ σ => { c with subscriptions := c.subscriptions ++ [s] }
  match c.phase with
  | .stopped => (.error .stopped, c)
  | .idle => (.ok (), register c)
  | .running =>
    match c.call (t.subscribe s.filter) with
    | (.ok (), c) => (.ok (), register c)
    | (.error e, c) => (.error e, c)

/-- Connects and starts the consumer. `runtime` says whether there is
anything to run it. A start that fails leaves the client idle; the mailbox
that the transport was given is then closed. -/
def start (t : Transport σ) (runtime : Bool) (c : Client κ σ) : Except Fault Unit × Client κ σ :=
  match c.phase with
  | .running => (.error .alreadyStarted, c)
  | .stopped => (.error .stopped, c)
  | .idle =>
    if !runtime then (.error .noRuntime, c)
    else
      let giveUp := fun (e : Fault) (c : Client κ σ) => (.error e, { c with mailbox := c.mailbox.close })
      match { c with mailbox := c.mailbox.reopen }.call t.connect with
      | (.error e, c) => giveUp e c
      | (.ok (), c) =>
        match subscribeAll t c (c.subscriptions.map (·.filter)) with
        | (.error e, c) => giveUp e c
        | (.ok (), c) => (.ok (), { c with phase := .running })

def publish (t : Transport σ) (message : Message) (c : Client κ σ) : Except Fault Unit × Client κ σ :=
  match c.phase with
  | .running => c.call (t.publish message)
  | _ => (.error .notRunning, c)

/-- The handlers that a message is for, in the order of registration. -/
def handlersFor (subscriptions : List (Subscription κ)) (message : Message) : List (Subscription κ) :=
  subscriptions.filter fun s => filterMatches s.filter message.topic

/-- The handlers that finish a message: those before the first that fails,
and whether one fails. -/
def callHandlers (message : Message) : List (Subscription κ) → List κ × Bool
  | [] => ([], false)
  | s :: rest =>
    if s.fails message then ([], true)
    else
      let (called, failed) := callHandlers message rest
      (s.handler :: called, failed)

/-- The consumer takes one message and calls its handlers. -/
def consume (c : Client κ σ) : Client κ σ :=
  match c.mailbox.queue with
  | [] => c
  | message :: rest =>
    let (called, failed) := callHandlers message (handlersFor c.subscriptions message)
    { c with
      log := c.log ++ called.map fun h => (h, message)
      consumerFailed := c.consumerFailed || failed
      mailbox := if failed then c.mailbox.close else { c.mailbox with queue := rest } }

def consumeMany : Nat → Client κ σ → Client κ σ
  | 0, c => c
  | n + 1, c => consumeMany n c.consume

def drain (c : Client κ σ) : Client κ σ := consumeMany c.mailbox.queue.length c

/-- Marks the client as stopped and disconnects. -/
def disconnect (t : Transport σ) (c : Client κ σ) : Except Fault Unit × Client κ σ :=
  { c with phase := .stopped }.call t.disconnect

/-- Disconnects, lets the consumer finish what is queued and ends it. The
consumer takes `early` messages before it notices, and the others after. A
client that does not run is only marked as stopped. -/
def stop (t : Transport σ) (early : Nat) (c : Client κ σ) : Except Fault Unit × Client κ σ :=
  match c.phase with
  | .running =>
    let (result, c) := c.disconnect t
    let c := (consumeMany early c).drain
    let c := { c with mailbox := c.mailbox.close }
    (if c.consumerFailed then .error .consumerFailed else result, c)
  | _ => (.ok (), { c with phase := .stopped })

end Client

end Channel

end FlowScript
