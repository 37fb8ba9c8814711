/-
What becomes of the messages of a run whose handlers return: each that is
sent while the client runs is queued, or is for nobody, or finds the queue
full and is counted; and each that is queued waits there until the consumer
takes it, first come first served, and calls the handlers with it
(`accounting_of_run`).
-/
import FlowScript.Proofs.Runs

namespace FlowScript.Channel

variable {κ : Type}

/-- The calls that a message leads to. -/
def Client.calls (subscriptions : List (Subscription κ)) (message : Message) : List (κ × Message) :=
  (handlersFor subscriptions message).map fun s => (s.handler, message)

namespace Moment

/-- Whether a message is sent that is for somebody and finds the queue full. -/
def overflows (x : Moment κ) : Bool :=
  match x.sent? with
  | some message => x.before.client.wants message.topic &&
      decide (x.before.client.mailbox.capacity ≤ x.before.client.mailbox.queue.length)
  | none => false

/-- The message that is published while the client runs. -/
def published? (x : Moment κ) : Option Message :=
  match x.event with
  | .request (.publish _) => x.sent?
  | _ => none

/-- The subscription that an event adds to those of the client. -/
def registered (x : Moment κ) : List (Subscription κ) :=
  match x.event with
  | .request (.subscribe s) => if x.before.client.phase = .stopped then [] else [s]
  | _ => []

end Moment

namespace Session

variable {capacity : Nat} {σ σ' : Session κ} {event : Event κ}

theorem Effect.subscriptions (h : Effect σ event σ') :
    σ'.client.subscriptions = σ.client.subscriptions ++ Moment.registered ⟨σ, event, σ'⟩ := by
  cases h with
  | @refused r h =>
    cases r with
    | subscribe s =>
      have hp : σ.client.phase = .stopped := by simpa [Client.refuses] using h
      simp [Moment.registered, hp]
    | start _ | publish _ | inject _ | stop => simp [Moment.registered]
  | registered hp | subscribed hp => simp [Moment.registered, hp]
  | published _ | injected _ => simp [Moment.registered]
  | started _ | retired _ | disconnected _ | handled _ _ _ | failed _ _ _ | finished _ _ _ _
  | shutDown _ _ | joined _ _ => exact (List.append_nil _).symm

/-- A call that is refused sends nothing. -/
theorem sent?_of_refuses {r : Request κ} (h : σ.client.refuses r = true) :
    Moment.sent? ⟨σ, .request r, σ'⟩ = none := by
  cases r with
  | publish _ | inject _ =>
    have hr : σ.client.isRunning = false := by simpa [Client.refuses] using h
    simp [Moment.sent?, hr]
  | subscribe _ | start _ | stop => simp [Moment.sent?, Event.message?]

theorem Effect.accepted (h : Effect σ event σ') :
    Moment.accepted ⟨σ, event, σ'⟩ =
      match Moment.sent? ⟨σ, event, σ'⟩ with
      | some message => if σ.client.wants message.topic && σ.client.mailbox.hasRoom then [message] else []
      | none => [] := by
  have hreceive (message : Message) :
      (σ.client.receive message).mailbox.queue.drop σ.client.mailbox.queue.length =
        if σ.client.wants message.topic && σ.client.mailbox.hasRoom then [message] else [] := by
    rw [Client.receive_queue]
    split <;> simp
  cases h with
  | refused h => simp [Moment.accepted, sent?_of_refuses h]
  | published hp | injected hp =>
    simp [Moment.accepted, Moment.sent?, Event.message?, Client.isRunning, hp, hreceive]
  | handled _ hqueue _ => simp [Moment.accepted, Moment.sent?, Event.message?, hqueue]
  | registered _ | subscribed _ | started _ | retired _ | disconnected _ | failed _ _ _ | finished _ _ _ _
  | shutDown _ _ | joined _ _ =>
    simp [Moment.accepted, Moment.sent?, Event.message?, endTask, Mailbox.reopen, Mailbox.close]

/-- What is taken out of the queue and what is left is what was there and what is added. -/
theorem Effect.balance (hσ : Sound capacity σ) (h : Effect σ event σ')
    (hreturn : ∀ s ∈ σ.client.subscriptions, ∀ message, s.fails message = false) :
    Moment.dispatched ⟨σ, event, σ'⟩ ++ σ'.client.mailbox.queue =
      σ.client.mailbox.queue ++ Moment.accepted ⟨σ, event, σ'⟩ := by
  have hadd (message : Message) : (σ.client.receive message).mailbox.queue = σ.client.mailbox.queue ++
      (σ.client.receive message).mailbox.queue.drop σ.client.mailbox.queue.length := by
    rw [Client.receive_queue]
    split <;> simp
  cases h with
  | started hp =>
    have hq := hσ.queue_eq_nil (.inl (hσ.stage.of_idle hp).2.1)
    simp [Moment.dispatched, Moment.accepted, Mailbox.reopen, hq]
  | published _ | injected _ => exact hadd _
  | handled _ hqueue _ => simp [Moment.dispatched, Moment.accepted, hqueue]
  | failed _ _ hfail => exact absurd hfail (Client.no_handler_fails hreturn _)
  | finished ht _ _ hqueue =>
    rcases ht with rfl | rfl <;> simp [Moment.dispatched, Moment.accepted, endTask, Mailbox.close, hqueue]
  | refused _ | registered _ | subscribed _ | retired _ | disconnected _ | shutDown _ _ | joined _ _ =>
    simp [Moment.dispatched, Moment.accepted]

/-- What is taken out of the queue is what the handlers are called with. -/
theorem Effect.log (h : Effect σ event σ')
    (hreturn : ∀ s ∈ σ.client.subscriptions, ∀ message, s.fails message = false) :
    σ'.client.log = σ.client.log ++
      (Moment.dispatched ⟨σ, event, σ'⟩).flatMap (Client.calls σ.client.subscriptions) := by
  cases h with
  | handled _ hqueue _ => simp [Moment.dispatched, hqueue, Client.calls]
  | failed _ _ hfail => exact absurd hfail (Client.no_handler_fails hreturn _)
  | finished ht _ _ _ => rcases ht with rfl | rfl <;> simp [Moment.dispatched, endTask]
  | refused _ | registered _ | subscribed _ | started _ | published _ | injected _ | retired _
  | disconnected _ | shutDown _ _ | joined _ _ => simp [Moment.dispatched]

theorem Effect.dropped (h : Effect σ event σ')
    (hopen : σ.client.isRunning = true → σ.client.mailbox.isOpen = true) :
    σ'.client.dropped = σ.client.dropped + if Moment.overflows ⟨σ, event, σ'⟩ then 1 else 0 := by
  have hreceive (hp : σ.client.phase = .running) (message : Message) :
      (σ.client.receive message).mailbox.dropped = σ.client.mailbox.dropped +
        if σ.client.wants message.topic &&
          decide (σ.client.mailbox.capacity ≤ σ.client.mailbox.queue.length) then 1 else 0 := by
    rw [Client.receive_dropped, hopen (by rw [Client.isRunning, hp]; rfl), Bool.true_and]
    split <;> rfl
  cases h with
  | refused h => simp [Moment.overflows, sent?_of_refuses h]
  | published hp | injected hp =>
    simp [Client.dropped, Moment.overflows, Moment.sent?, Event.message?, Client.isRunning, hp, hreceive hp]
  | registered _ | subscribed _ | started _ | retired _ | disconnected _ | handled _ _ _ | failed _ _ _
  | finished _ _ _ _ | shutDown _ _ | joined _ _ =>
    simp [Client.dropped, Moment.overflows, Moment.sent?, Event.message?, endTask, Mailbox.reopen,
      Mailbox.close]

theorem Effect.consumerFailed (h : Effect σ event σ')
    (hreturn : ∀ s ∈ σ.client.subscriptions, ∀ message, s.fails message = false) :
    σ'.client.consumerFailed = σ.client.consumerFailed := by
  cases h with
  | failed _ _ hfail => exact absurd hfail (Client.no_handler_fails hreturn _)
  | published _ | injected _ => simp
  | refused _ | registered _ | subscribed _ | started _ | retired _ | disconnected _ | handled _ _ _
  | finished _ _ _ _ | shutDown _ _ | joined _ _ => rfl

theorem Effect.published_eq (h : Effect σ event σ') :
    σ'.client.transport.published =
      σ.client.transport.published ++ (Moment.published? ⟨σ, event, σ'⟩).toList := by
  cases h with
  | @refused r h => cases r <;> simp [Moment.published?, sent?_of_refuses h]
  | published hp => simp [Moment.published?, Moment.sent?, Event.message?, Client.isRunning, hp]
  | injected _ => simp [Moment.published?]
  | registered _ | subscribed _ | started _ | retired _ | disconnected _ | handled _ _ _ | failed _ _ _
  | finished _ _ _ _ | shutDown _ _ | joined _ _ => simp [Moment.published?, endTask]

end Session

/-! ## Runs whose handlers return -/

/-- Whether all handlers that are registered in a run return, whatever the message. -/
def Steady (past : List (Moment κ)) : Prop :=
  ∀ s, .request (.subscribe s) ∈ past.map (·.event) → ∀ message, s.fails message = false

theorem Steady.of_append {past more : List (Moment κ)} (h : Steady (past ++ more)) : Steady past :=
  fun s hs => h s (by rw [List.map_append]; exact List.mem_append_left _ hs)

namespace Run

variable {capacity : Nat} {past : List (Moment κ)} {σ : Session κ}

/-- The subscriptions of a client are those that were made, in that order. -/
theorem subscriptions_eq (run : Run capacity past σ) :
    σ.client.subscriptions = past.flatMap Moment.registered := by
  induction run with
  | new h =>
    obtain rfl := Session.create_loopback h
    rfl
  | next run hstep ih =>
    rw [List.flatMap_append, List.flatMap_singleton, ← ih]
    exact (Session.effect_of_step run.sound hstep).subscriptions

theorem handlers_return (run : Run capacity past σ) (hsteady : Steady past) :
    ∀ s ∈ σ.client.subscriptions, ∀ message, s.fails message = false := by
  intro s hs
  rw [run.subscriptions_eq, List.mem_flatMap] at hs
  obtain ⟨x, hx, hs⟩ := hs
  unfold Moment.registered at hs
  split at hs
  next s' hevent =>
    split at hs
    · cases hs
    · rw [List.mem_singleton.1 hs]
      exact hsteady s' (List.mem_map.2 ⟨x, hx, hevent⟩)
  next => cases hs

theorem not_failed (run : Run capacity past σ) (hsteady : Steady past) :
    σ.client.consumerFailed = false := by
  induction run with
  | new h =>
    obtain rfl := Session.create_loopback h
    rfl
  | next run hstep ih =>
    have hpast := hsteady.of_append
    exact ((Session.effect_of_step run.sound hstep).consumerFailed (run.handlers_return hpast)).trans
      (ih hpast)

theorem isOpen_of_steady (run : Run capacity past σ) (hsteady : Steady past)
    (hr : σ.client.isRunning = true) : σ.client.mailbox.isOpen = true := by
  rw [run.sound.isOpen hr, run.not_failed hsteady]
  rfl

/-- What has been handed to the handlers and what is still queued is what has been accepted. -/
theorem balance (run : Run capacity past σ) (hsteady : Steady past) :
    past.flatMap Moment.dispatched ++ σ.client.mailbox.queue = past.flatMap Moment.accepted := by
  induction run with
  | new h =>
    obtain rfl := Session.create_loopback h
    rfl
  | next run hstep ih =>
    have hpast := hsteady.of_append
    have h := (Session.effect_of_step run.sound hstep).balance run.sound (run.handlers_return hpast)
    rw [List.flatMap_append, List.flatMap_append, List.flatMap_singleton, List.flatMap_singleton,
      List.append_assoc, h, ← List.append_assoc, ih hpast]

/-- What is dispatched at a moment is what the handlers are called with then. -/
theorem log_of_mem (run : Run capacity past σ) (hsteady : Steady past) {x : Moment κ} (hx : x ∈ past) :
    x.after.client.log =
      x.before.client.log ++ x.dispatched.flatMap (Client.calls x.before.client.subscriptions) := by
  obtain ⟨earlier, later, rfl, hearlier, heffect⟩ := run.before_of_mem hx
  exact heffect.log (hearlier.handlers_return hsteady.of_append)

/-- Whatever is dispatched is for somebody. -/
theorem calls_ne_nil (run : Run capacity past σ) {x : Moment κ} (hx : x ∈ past) {message : Message}
    (hm : message ∈ x.dispatched) : Client.calls x.before.client.subscriptions message ≠ [] := by
  obtain ⟨_, _, -, hearlier, -⟩ := run.before_of_mem hx
  intro hnone
  exact Client.handlersFor_ne_nil (hearlier.sound.wants_of_dispatched hm) (List.map_eq_nil_iff.1 hnone)

theorem dropped_eq (run : Run capacity past σ) (hsteady : Steady past) :
    σ.client.dropped = past.countP Moment.overflows := by
  induction run with
  | new h =>
    obtain rfl := Session.create_loopback h
    rfl
  | next run hstep ih =>
    have hpast := hsteady.of_append
    rw [List.countP_append, List.countP_singleton, ← ih hpast]
    exact (Session.effect_of_step run.sound hstep).dropped (run.isOpen_of_steady hpast)

theorem published_eq (run : Run capacity past σ) :
    σ.client.transport.published = past.filterMap Moment.published? := by
  induction run with
  | new h =>
    obtain rfl := Session.create_loopback h
    rfl
  | next run hstep ih =>
    rw [List.filterMap_append, ← ih, List.filterMap_cons, List.filterMap_nil]
    have h := (Session.effect_of_step run.sound hstep).published_eq
    cases hx : Moment.published? ⟨_, _, _⟩ <;> simpa [hx] using h

end Run

/-- While handlers return: the queue keeps to its capacity; what has been
handed to the handlers and what is still queued make up what was accepted, in
that order, and what is handed to the handlers at a moment is what they are
called with then, some handler for each message; a message sent while the
client runs is accepted exactly if some subscription is for it and the queue has
room, and nothing else is; what found the queue full is counted; and the
transport has recorded what was published. -/
theorem accounting_of_run {capacity : Nat} {past : List (Moment κ)} {σ : Session κ}
    (run : Run capacity past σ) (hsteady : Steady past) :
    σ.client.mailbox.queue.length ≤ capacity ∧
    past.flatMap Moment.dispatched ++ σ.client.mailbox.queue = past.flatMap Moment.accepted ∧
    (∀ x ∈ past, x.after.client.log =
        x.before.client.log ++ x.dispatched.flatMap (Client.calls x.before.client.subscriptions) ∧
      ∀ message ∈ x.dispatched, Client.calls x.before.client.subscriptions message ≠ []) ∧
    (∀ x ∈ past, ∀ message, x.sent? = some message → x.accepted =
      if x.before.client.wants message.topic ∧ x.before.client.mailbox.queue.length < capacity
      then [message] else []) ∧
    (∀ x ∈ past, x.sent? = none → x.accepted = []) ∧
    σ.client.dropped = past.countP Moment.overflows ∧
    σ.client.transport.published = past.filterMap Moment.published? := by
  refine ⟨run.sound.bounded, run.balance hsteady,
    fun x hx => ⟨run.log_of_mem hsteady hx, fun message => run.calls_ne_nil hx⟩, fun x hx message hs => ?_,
    fun x hx hs => ?_, run.dropped_eq hsteady, run.published_eq⟩
  · obtain ⟨earlier, later, rfl, hearlier, heffect⟩ := run.before_of_mem hx
    have hr : x.before.client.isRunning = true := by
      unfold Moment.sent? at hs
      split at hs
      · assumption
      · cases hs
    have h := heffect.accepted
    rw [hs] at h
    have hroom : x.before.client.mailbox.hasRoom = true ↔
        x.before.client.mailbox.queue.length < capacity := by
      rw [Mailbox.hasRoom, hearlier.isOpen_of_steady hsteady.of_append hr, hearlier.sound.capacity_eq]
      simp
    simpa [hroom] using h
  · obtain ⟨_, _, -, -, heffect⟩ := run.before_of_mem hx
    have h := heffect.accepted
    rwa [hs] at h

/-- The client of `overlapping` is stopped with a message in its queue. -/
def stoppedFull : List (Event String) :=
  overlapping ++ [.request .stop, .turn .shutdown, .turn .message, .turn .drained, .joined]

theorem steady_stoppedFull {past : List (Moment String)} (h : past.map (·.event) = stoppedFull) :
    Steady past := by
  intro s hs message
  rw [h] at hs
  simp [stoppedFull, overlapping] at hs
  obtain rfl | rfl | rfl := hs <;> rfl

theorem accounting_of_stoppedFull :
    ∃ past σ, Run 1 past σ ∧ past.map (·.event) = stoppedFull ∧ Steady past ∧
      past.flatMap Moment.dispatched ++ σ.client.mailbox.queue = [⟨"a/b", "1"⟩, ⟨"a", "4"⟩] ∧
      σ.client.dropped = 1 ∧ σ.client.transport.published = [⟨"a/b", "1"⟩, ⟨"a/c", "2"⟩, ⟨"z", "3"⟩] := by
  obtain ⟨past, σ, run, hevents, hcheck⟩ := Session.exists_run_of_playNew
    (fun past _ => past.flatMap Moment.accepted == [⟨"a/b", "1"⟩, ⟨"a", "4"⟩] &&
      past.countP Moment.overflows == 1 &&
      past.filterMap Moment.published? == [⟨"a/b", "1"⟩, ⟨"a/c", "2"⟩, ⟨"z", "3"⟩])
    (show (Session.playNew 1 stoppedFull).any _ = true by decide)
  simp only [Bool.and_eq_true, beq_iff_eq] at hcheck
  obtain ⟨⟨haccepted, hdropped⟩, hpublished⟩ := hcheck
  have hsteady := steady_stoppedFull hevents
  obtain ⟨-, hbalance, -, -, -, hcount, hrecord⟩ := accounting_of_run run hsteady
  exact ⟨past, σ, run, hevents, hsteady, hbalance.trans haccepted, hcount.trans hdropped,
    hrecord.trans hpublished⟩

end FlowScript.Channel
