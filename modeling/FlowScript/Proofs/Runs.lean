/-
Runs of a client over the loopback transport, with what happened on the way.
What holds throughout is kept by every event (`Sound.next`), so it holds in
every session that can be reached (`Run.sound`). In particular the filters of
the transport are those of the client's subscriptions (`filters_of_run`).
-/
import FlowScript.Proofs.Effects

namespace FlowScript.Channel

variable {κ : Type}

namespace Session

variable {capacity : Nat} {σ σ' : Session κ} {event : Event κ}

/-! ## Every session is sound -/

theorem create_loopback {client : Client κ Loopback}
    (h : Client.create Loopback.idle capacity = .ok client) :
    client = { transport := .idle, mailbox := .closed capacity, subscriptions := [], phase := .idle,
               consumerFailed := false, log := [] } := by
  rw [Client.create] at h
  split at h <;> cases h
  rfl

theorem sound_ofClient {client : Client κ Loopback}
    (h : Client.create Loopback.idle capacity = .ok client) : Sound capacity (ofClient client) := by
  obtain rfl := create_loopback h
  exact
    { stage := .idle rfl rfl rfl rfl
      capacity_eq := rfl
      bounded := Nat.zero_le _
      connected := rfl
      filters := rfl
      isOpen := fun hr => absurd hr Bool.false_ne_true
      matched := List.forall_mem_nil _
      quiet := fun _ => rfl }

theorem wants_concat {c : Client κ Loopback} {s : Subscription κ} {topic : String}
    (h : c.wants topic = true) :
    Client.wants { c with subscriptions := c.subscriptions ++ [s] } topic = true := by
  rw [Client.wants, List.any_append]
  exact Bool.or_eq_true_iff.2 (.inl h)

theorem Sound.receive (hσ : Sound capacity σ) (message : Message) :
    Sound capacity { σ with client := σ.client.receive message } where
  stage := hσ.stage.congr (by simp) rfl (by simp) rfl
  capacity_eq := by simpa using hσ.capacity_eq
  bounded := by
    have h := Mailbox.length_deliver_le (hσ.capacity_eq ▸ hσ.bounded) message
    rw [Mailbox.capacity_deliver, hσ.capacity_eq] at h
    simp only [Client.receive]
    split
    · exact h
    · exact hσ.bounded
  connected := by simpa [Client.isRunning] using hσ.connected
  filters := by simpa [Client.isRunning] using hσ.filters
  isOpen := by simpa [Client.isRunning] using hσ.isOpen
  matched := by
    intro other hm
    simp only [Client.receive_queue] at hm
    rw [Client.wants, Client.receive_subscriptions]
    split at hm
    next h =>
      rw [Bool.and_eq_true] at h
      rcases List.mem_append.1 hm with hm | hm
      · exact hσ.matched other hm
      · rw [List.mem_singleton.1 hm]
        exact h.1
    next => exact hσ.matched other hm
  quiet := by
    intro htask
    have hclosed : σ.client.mailbox.isOpen = false := by
      rw [← hσ.quiet htask]
      rfl
    rw [Client.receive_of_closed σ.client message hclosed]
    exact hσ.quiet htask

theorem Sound.next (hσ : Sound capacity σ) (h : Effect σ event σ') : Sound capacity σ' := by
  cases h with
  | refused _ => exact hσ
  | registered hp =>
    exact
      { hσ with
        stage := hσ.stage.congr rfl rfl rfl rfl
        filters := by simp [Client.isRunning, hp, hσ.filters_of_not_running]
        matched := fun message hm => wants_concat (hσ.matched message hm) }
  | subscribed hp =>
    exact
      { hσ with
        stage := hσ.stage.congr rfl rfl rfl rfl
        filters := by
          simp [Client.isRunning, hp, hσ.filters_of_running hp, List.map_append, eraseDups_concat]
        matched := fun message hm => wants_concat (hσ.matched message hm) }
  | started hp =>
    obtain ⟨hstop, -, hfailed⟩ := hσ.stage.of_idle hp
    exact
      { hσ with
        stage := .running rfl rfl hfailed hstop
        bounded := Nat.zero_le _
        connected := rfl
        filters := foldl_addOnce [] _
        isOpen := fun _ => by simp [Mailbox.reopen, hfailed]
        matched := List.forall_mem_nil _
        quiet := fun h => by simp at h }
  | published hp =>
    exact
      { hσ.receive _ with
        stage := hσ.stage.congr (by simp) rfl (by simp) rfl
        connected := by simpa [Client.isRunning] using hσ.connected
        filters := by simpa [Client.isRunning] using hσ.filters }
  | injected hp => exact hσ.receive _
  | retired hp =>
    have hr : σ.client.isRunning = false := by simpa [Client.isRunning] using hp
    exact
      { hσ with
        stage := by
          cases hσ.stage with
          | idle _ task _ stopping => exact .stopped rfl (.inl task) stopping
          | running phase _ _ _ | crashed phase _ _ _ => exact absurd phase hp
          | stopping _ task failed stopping => exact .stopping rfl task failed stopping
          | stopped _ task stopping => exact .stopped rfl task stopping
        connected := hσ.connected.trans hr
        filters := hσ.filters_of_not_running hp
        isOpen := fun hr => absurd hr Bool.false_ne_true }
  | disconnected hp =>
    obtain ⟨-, htask⟩ := hσ.stage.task_of_running hp
    exact
      { hσ with
        stage := by
          refine .stopping rfl ?_ ?_ rfl
          · rcases htask with ⟨h, -⟩ | ⟨h, -⟩ <;> simp [h]
          · intro hf
            rcases htask with ⟨-, h⟩ | ⟨h, -⟩
            · rw [h] at hf; cases hf
            · exact h
        connected := rfl
        filters := rfl
        isOpen := fun hr => absurd hr Bool.false_ne_true }
  | handled htask hqueue hreturn =>
    have hlength := hσ.bounded
    rw [hqueue, List.length_cons] at hlength
    exact
      { hσ with
        stage := hσ.stage.congr rfl rfl rfl rfl
        bounded := Nat.le_of_succ_le hlength
        matched := fun message hm => hσ.matched message (hqueue ▸ List.mem_cons_of_mem _ hm)
        quiet := fun h => by rcases htask with ht | ht <;> simp [ht] at h }
  | failed htask hqueue hfail =>
    exact
      { hσ with
        stage := by
          cases hσ.stage with
          | idle _ task _ _ | crashed _ task _ _ => simp [task] at htask
          | running phase _ _ stopping => exact .crashed phase rfl rfl stopping
          | stopping phase _ _ stopping => exact .stopping phase (by simp) (fun _ => rfl) stopping
          | stopped _ task _ => rcases task with task | task <;> simp [task] at htask
        bounded := Nat.zero_le _
        isOpen := fun _ => rfl
        matched := List.forall_mem_nil _
        quiet := fun _ => rfl }
  | finished ht hp htask hqueue =>
    exact
      { hσ with
        stage := by
          cases hσ.stage with
          | idle phase _ _ _ | running phase _ _ _ | crashed phase _ _ _ => rw [phase] at hp; cases hp
          | stopping phase _ _ stopping => exact .stopping phase (by simp [endTask]) (fun _ => rfl) stopping
          | stopped phase _ stopping => exact .stopped phase (.inr rfl) stopping
        bounded := Nat.zero_le _
        isOpen := fun h => by simp [Client.isRunning, endTask, hp] at h
        matched := List.forall_mem_nil _
        quiet := fun _ => rfl }
  | shutDown htask hstop =>
    obtain ⟨hp, hs, -⟩ := hσ.stage.of_stopping hstop
    exact
      { hσ with
        stage := .stopping hp (by simp) (fun h => by simp [hσ.not_failed (.inl htask)] at h) hs
        isOpen := fun h => by simp [Client.isRunning, hp] at h
        quiet := fun h => by simp at h }
  | joined htask hstop =>
    exact { hσ with stage := .stopped (hσ.stage.of_stopping hstop).1 (.inr htask) rfl }

end Session

/-! ## Runs -/

/-- The message of a call that sends one. -/
def Event.message? : Event κ → Option Message
  | .request (.publish message) => some message
  | .request (.inject message) => some message
  | _ => none

/-- An event of a run, with the session before it and after. -/
structure Moment (κ : Type) where
  before : Session κ
  event : Event κ
  after : Session κ

/-- The sessions that a new client with room for `capacity` messages can come to, each with its past. -/
inductive Run (capacity : Nat) : List (Moment κ) → Session κ → Prop where
  | new {client : Client κ Loopback} (h : Client.create Loopback.idle capacity = .ok client) :
      Run capacity [] (.ofClient client)
  | next {past : List (Moment κ)} {σ σ' : Session κ} {event : Event κ} (h : Run capacity past σ)
      (hstep : σ.step event = some σ') : Run capacity (past ++ [⟨σ, event, σ'⟩]) σ'

namespace Moment

/-- The message that is sent while the client runs. -/
def sent? (x : Moment κ) : Option Message :=
  if x.before.client.isRunning then x.event.message? else none

/-- The messages that an event adds to the queue. -/
def accepted (x : Moment κ) : List Message :=
  x.after.client.mailbox.queue.drop x.before.client.mailbox.queue.length

/-- The messages that an event hands to the handlers. -/
def dispatched (x : Moment κ) : List Message :=
  match x.event with
  | .turn .message => x.before.client.mailbox.queue.take 1
  | _ => []

end Moment

namespace Run

variable {capacity : Nat} {past : List (Moment κ)} {σ : Session κ}

theorem sound (run : Run capacity past σ) : σ.Sound capacity := by
  induction run with
  | new h => exact Session.sound_ofClient h
  | next _ hstep ih => exact ih.next (Session.effect_of_step ih hstep)

/-- What happened in a run happened in a session that a run comes to. -/
theorem before {earlier later : List (Moment κ)} {x : Moment κ}
    (run : Run capacity (earlier ++ x :: later) σ) :
    Run capacity earlier x.before ∧ x.before.step x.event = some x.after := by
  -- A run grows at its end, so `x` is what happened last or lies in the run before that.
  generalize hpast : earlier ++ x :: later = past at run
  induction run generalizing later with
  | new _ => simp at hpast
  | next run hstep ih =>
    rcases List.eq_nil_or_concat later with rfl | ⟨later, y, rfl⟩
    · obtain ⟨rfl, hx⟩ := List.append_inj' hpast rfl
      cases hx
      exact ⟨run, hstep⟩
    · rw [List.concat_eq_append, ← List.cons_append, ← List.append_assoc] at hpast
      exact ih (List.append_inj' hpast rfl).1

theorem before_of_mem (run : Run capacity past σ) {x : Moment κ} (hx : x ∈ past) :
    ∃ earlier later, past = earlier ++ x :: later ∧ Run capacity earlier x.before ∧
      x.before.Effect x.event x.after := by
  obtain ⟨earlier, later, rfl⟩ := List.append_of_mem hx
  obtain ⟨hearlier, hstep⟩ := run.before
  exact ⟨earlier, later, rfl, hearlier, Session.effect_of_step hearlier.sound hstep⟩

end Run

namespace Session

/-- The moments of a session as events happen in it one after another, and the
session after them, if all of them can happen. -/
def play (σ : Session κ) : List (Event κ) → Option (List (Moment κ) × Session κ)
  | [] => some ([], σ)
  | event :: events => do
    let σ' ← σ.step event
    let (moments, last) ← σ'.play events
    return (⟨σ, event, σ'⟩ :: moments, last)

theorem events_play {moments : List (Moment κ)} {σ last : Session κ} {events : List (Event κ)}
    (h : σ.play events = some (moments, last)) : moments.map (·.event) = events := by
  induction events generalizing σ moments with
  | nil =>
    cases h
    rfl
  | cons event events ih =>
    simp only [play, Option.bind_eq_bind, Option.bind_eq_some_iff] at h
    obtain ⟨σ', -, ⟨rest, _⟩, hrest, h⟩ := h
    cases h
    rw [List.map_cons, ih hrest]

theorem run_play {capacity : Nat} {past moments : List (Moment κ)} {σ last : Session κ}
    {events : List (Event κ)} (run : Run capacity past σ) (h : σ.play events = some (moments, last)) :
    Run capacity (past ++ moments) last := by
  induction events generalizing past σ moments with
  | nil =>
    cases h
    rwa [List.append_nil]
  | cons event events ih =>
    simp only [play, Option.bind_eq_bind, Option.bind_eq_some_iff] at h
    obtain ⟨σ', hstep, ⟨rest, _⟩, hrest, h⟩ := h
    cases h
    rw [← List.singleton_append, ← List.append_assoc]
    exact ih (run.next hstep) hrest

/-- What happens with a new client, as `play` has it. -/
def playNew (capacity : Nat) (events : List (Event κ)) : Option (List (Moment κ) × Session κ) :=
  match Client.create Loopback.idle capacity with
  | .ok client => (ofClient client).play events
  | .error _ => none

/-- A run of given events whose outcome passes a check. -/
theorem exists_run_of_playNew {capacity : Nat} {events : List (Event κ)}
    (check : List (Moment κ) → Session κ → Bool)
    (h : (playNew capacity events).any (fun r => check r.1 r.2) = true) :
    ∃ past σ, Run capacity past σ ∧ past.map (·.event) = events ∧ check past σ = true := by
  unfold playNew at h
  split at h
  next client hclient =>
    cases hplay : (ofClient client).play events with
    | none => simp [hplay] at h
    | some r => exact ⟨r.1, r.2, run_play (.new hclient) hplay, events_play hplay, by simpa [hplay] using h⟩
  next => cases h

end Session

theorem Session.Sound.wants_of_dispatched {capacity : Nat} {x : Moment κ}
    (hx : x.before.Sound capacity) {message : Message} (hm : message ∈ x.dispatched) :
    x.before.client.wants message.topic = true := by
  unfold Moment.dispatched at hm
  split at hm
  · exact hx.matched message (List.mem_of_mem_take hm)
  · cases hm

/-- While the client runs, the filters of its transport are those of its
subscriptions, in the order of registration and each once; before that and
after there are none. So the transport hands on what some subscription is for
and nothing else, which is then queued as long as the consumer lives and the
queue has room, and whatever has been queued is for some handler. -/
theorem filters_of_run {capacity : Nat} {past : List (Moment κ)} {σ : Session κ}
    (run : Run capacity past σ) :
    (σ.client.isRunning = true →
      σ.client.transport.filters = (σ.client.subscriptions.map (·.filter)).eraseDups) ∧
    (σ.client.isRunning = false → σ.client.transport.filters = []) ∧
    (σ.client.isRunning = true → ∀ topic, σ.client.transport.wants topic = true ↔
      ∃ s ∈ σ.client.subscriptions, filterMatches s.filter topic = true) ∧
    (σ.client.isRunning = true → σ.client.consumerFailed = false →
      σ.client.mailbox.queue.length < capacity → ∀ message : Message,
        ((σ.client.publish Loopback.transport message).2.mailbox.queue =
            σ.client.mailbox.queue ++ [message] ↔
          ∃ s ∈ σ.client.subscriptions, filterMatches s.filter message.topic = true) ∧
        ((σ.client.inject message).2.mailbox.queue = σ.client.mailbox.queue ++ [message] ↔
          ∃ s ∈ σ.client.subscriptions, filterMatches s.filter message.topic = true)) ∧
    (∀ message ∈ σ.client.mailbox.queue,
      ∃ s ∈ σ.client.subscriptions, filterMatches s.filter message.topic = true) ∧
    ∀ x ∈ past, ∀ message ∈ x.dispatched,
      Client.handlersFor x.before.client.subscriptions message ≠ [] := by
  have hσ := run.sound
  have hrunning (hr : σ.client.isRunning = true) : σ.client.phase = .running := by
    simpa [Client.isRunning] using hr
  refine ⟨fun hr => ?_, fun hr => ?_, fun hr topic => ?_, fun hr hf hl message => ?_, fun message hm => ?_,
    fun x hx message hm => ?_⟩
  · exact hσ.filters_of_running (hrunning hr)
  · rw [hσ.filters, if_neg (by rw [hr]; decide)]
  · rw [Client.wants_loopback (hσ.filters_of_running (hrunning hr)), Client.wants_iff]
  · have hp := hrunning hr
    have hroom : σ.client.mailbox.hasRoom = true := by
      rw [Mailbox.hasRoom, hσ.isOpen hr, hf, hσ.capacity_eq]
      simpa using hl
    have hreceive : (σ.client.receive message).mailbox.queue = σ.client.mailbox.queue ++ [message] ↔
        ∃ s ∈ σ.client.subscriptions, filterMatches s.filter message.topic = true := by
      rw [Client.receive_queue, hroom, ← Client.wants_iff]
      cases σ.client.wants message.topic <;> simp
    rw [Client.publish_loopback hp (hσ.connected_of_running hp),
      Client.inject_loopback (hσ.connected_of_running hp) (hσ.filters_of_running hp)]
    exact ⟨hreceive, hreceive⟩
  · exact Client.wants_iff.1 (hσ.matched message hm)
  · obtain ⟨_, _, -, hearlier, -⟩ := run.before_of_mem hx
    exact Client.handlersFor_ne_nil (hearlier.sound.wants_of_dispatched hm)

/-- Three subscriptions, two of them under one filter, and a queue that gets full. -/
def overlapping : List (Event String) :=
  [.request (.subscribe ⟨"a/#", "all", fun _ => false⟩), .request (.publish ⟨"a/b", "early"⟩),
    .request (.start true), .request (.subscribe ⟨"a/+", "one", fun _ => false⟩),
    .request (.subscribe ⟨"a/#", "again", fun _ => false⟩), .request (.publish ⟨"a/b", "1"⟩),
    .request (.publish ⟨"a/c", "2"⟩), .request (.publish ⟨"z", "3"⟩), .turn .message,
    .request (.inject ⟨"a", "4"⟩)]

theorem filters_of_overlapping :
    ∃ past σ, Run 1 past σ ∧ past.map (·.event) = overlapping ∧ σ.client.isRunning = true ∧
      σ.client.transport.filters = ["a/#", "a/+"] := by
  obtain ⟨past, σ, run, hevents, hcheck⟩ := Session.exists_run_of_playNew
    (fun _ σ => σ.client.isRunning &&
      (σ.client.subscriptions.map (·.filter)).eraseDups == ["a/#", "a/+"])
    (show (Session.playNew 1 overlapping).any _ = true by decide)
  rw [Bool.and_eq_true, beq_iff_eq] at hcheck
  exact ⟨past, σ, run, hevents, hcheck.1, ((filters_of_run run).1 hcheck.1).trans hcheck.2⟩

end FlowScript.Channel
