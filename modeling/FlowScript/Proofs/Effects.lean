/-
What an event does to a session: one case for each way it can go
(`effect_of_step`), with all that changes there, for sessions in which what
holds throughout (`Sound`) holds.
-/
import FlowScript.Proofs.Loopback

namespace FlowScript.Channel

variable {κ : Type}

namespace Client

/-- Whether a call does nothing but fail, in the phase the client is in. -/
def refuses (c : Client κ Loopback) : Request κ → Bool
  | .subscribe _ => c.phase == .stopped
  | .start runtime => c.phase != .idle || !runtime
  | .publish _ => !c.isRunning
  | .inject _ => !c.isRunning
  | .stop => false

end Client

/-! ## What holds in every session -/

namespace Session

/-- How far a session has come. -/
inductive Stage (σ : Session κ) : Prop where
  | idle (phase : σ.client.phase = .idle) (task : σ.task = .absent)
      (failed : σ.client.consumerFailed = false) (stopping : σ.stopping = none)
  | running (phase : σ.client.phase = .running) (task : σ.task = .waiting)
      (failed : σ.client.consumerFailed = false) (stopping : σ.stopping = none)
  /-- A handler has failed, and nobody has noticed yet. -/
  | crashed (phase : σ.client.phase = .running) (task : σ.task = .ended)
      (failed : σ.client.consumerFailed = true) (stopping : σ.stopping = none)
  | stopping (phase : σ.client.phase = .stopped) (task : σ.task ≠ .absent)
      (failed : σ.client.consumerFailed = true → σ.task = .ended) (stopping : σ.stopping = some (.ok ()))
  | stopped (phase : σ.client.phase = .stopped) (task : σ.task = .absent ∨ σ.task = .ended)
      (stopping : σ.stopping = none)

/-- What holds in every session that a new client with room for `capacity` messages can come to. -/
structure Sound (capacity : Nat) (σ : Session κ) : Prop where
  stage : Stage σ
  capacity_eq : σ.client.mailbox.capacity = capacity
  bounded : σ.client.mailbox.queue.length ≤ capacity
  connected : σ.client.transport.connected = σ.client.isRunning
  /-- The filters of the transport are those of the subscriptions while the client runs, each once. -/
  filters : σ.client.transport.filters =
    if σ.client.isRunning then (σ.client.subscriptions.map (·.filter)).eraseDups else []
  isOpen : σ.client.isRunning = true → σ.client.mailbox.isOpen = !σ.client.consumerFailed
  /-- What is queued is for some subscription. -/
  matched : ∀ message ∈ σ.client.mailbox.queue, σ.client.wants message.topic = true
  /-- Without a task nothing is queued, and nothing can be. -/
  quiet : σ.task = .absent ∨ σ.task = .ended → σ.client.mailbox.close = σ.client.mailbox

/-! ## What an event does -/

/-- What an event makes of a session. -/
inductive Effect (σ : Session κ) : Event κ → Session κ → Prop where
  | refused {r : Request κ} (h : σ.client.refuses r = true) : Effect σ (.request r) σ
  /-- An idle client keeps the filter for later. -/
  | registered {s : Subscription κ} (h : σ.client.phase = .idle) :
      Effect σ (.request (.subscribe s))
        { σ with client := { σ.client with subscriptions := σ.client.subscriptions ++ [s] } }
  | subscribed {s : Subscription κ} (h : σ.client.phase = .running) :
      Effect σ (.request (.subscribe s))
        { σ with client := { σ.client with
          subscriptions := σ.client.subscriptions ++ [s]
          transport := { σ.client.transport with filters := addOnce σ.client.transport.filters s.filter } } }
  | started (h : σ.client.phase = .idle) :
      Effect σ (.request (.start true))
        { σ with
          client := { σ.client with
            phase := .running
            mailbox := σ.client.mailbox.reopen
            transport := { σ.client.transport with
              connected := true
              filters := (σ.client.subscriptions.map (·.filter)).foldl addOnce [] } }
          task := .waiting }
  | published {message : Message} (h : σ.client.phase = .running) :
      Effect σ (.request (.publish message))
        { σ with client := { σ.client.receive message with transport :=
          { σ.client.transport with published := σ.client.transport.published ++ [message] } } }
  | injected {message : Message} (h : σ.client.phase = .running) :
      Effect σ (.request (.inject message)) { σ with client := σ.client.receive message }
  /-- Nothing runs that has to be stopped. -/
  | retired (h : σ.client.phase ≠ .running) :
      Effect σ (.request .stop) { σ with client := { σ.client with phase := .stopped } }
  | disconnected (h : σ.client.phase = .running) :
      Effect σ (.request .stop)
        { σ with
          client := { σ.client with
            phase := .stopped
            transport := { σ.client.transport with connected := false, filters := [] } }
          stopping := some (.ok ()) }
  | handled {message : Message} {rest : List Message} (htask : σ.task = .waiting ∨ σ.task = .draining)
      (hqueue : σ.client.mailbox.queue = message :: rest)
      (hreturn : ∀ s ∈ Client.handlersFor σ.client.subscriptions message, s.fails message = false) :
      Effect σ (.turn .message)
        { σ with client := { σ.client with
          log := σ.client.log ++
            (Client.handlersFor σ.client.subscriptions message).map fun s => (s.handler, message)
          mailbox := { σ.client.mailbox with queue := rest } } }
  | failed {message : Message} {rest : List Message} (htask : σ.task = .waiting ∨ σ.task = .draining)
      (hqueue : σ.client.mailbox.queue = message :: rest)
      (hfail : ∃ s ∈ Client.handlersFor σ.client.subscriptions message, s.fails message = true) :
      Effect σ (.turn .message)
        { σ with
          client := { σ.client with
            log := σ.client.log ++ (Client.callHandlers message
              (Client.handlersFor σ.client.subscriptions message)).1.map fun h => (h, message)
            consumerFailed := true
            mailbox := σ.client.mailbox.close }
          task := .ended }
  | finished {t : Turn} (ht : t = .channelEnd ∨ t = .drained) (hstage : σ.client.phase = .stopped)
      (htask : σ.task = .waiting ∨ σ.task = .draining) (hqueue : σ.client.mailbox.queue = []) :
      Effect σ (.turn t) σ.endTask
  | shutDown (htask : σ.task = .waiting) (hstop : σ.stopping.isSome) :
      Effect σ (.turn .shutdown)
        { σ with
          client := { σ.client with mailbox := { σ.client.mailbox with isOpen := false } }
          task := .draining }
  | joined (htask : σ.task = .ended) (hstop : σ.stopping.isSome) :
      Effect σ .joined { σ with stopping := none }

variable {capacity : Nat} {σ σ' : Session κ} {event : Event κ}

theorem Stage.congr (h : Stage σ) (hphase : σ'.client.phase = σ.client.phase) (htask : σ'.task = σ.task)
    (hfailed : σ'.client.consumerFailed = σ.client.consumerFailed) (hstop : σ'.stopping = σ.stopping) :
    Stage σ' := by
  cases h with
  | idle phase task failed stopping =>
    exact .idle (hphase.trans phase) (htask.trans task) (hfailed.trans failed) (hstop.trans stopping)
  | running phase task failed stopping =>
    exact .running (hphase.trans phase) (htask.trans task) (hfailed.trans failed) (hstop.trans stopping)
  | crashed phase task failed stopping =>
    exact .crashed (hphase.trans phase) (htask.trans task) (hfailed.trans failed) (hstop.trans stopping)
  | stopping phase task failed stopping =>
    refine .stopping (hphase.trans phase) (htask ▸ task) ?_ (hstop.trans stopping)
    rw [hfailed, htask]
    exact failed
  | stopped phase task stopping => exact .stopped (hphase.trans phase) (htask ▸ task) (hstop.trans stopping)

theorem Stage.task_of_running (h : Stage σ) (hp : σ.client.phase = .running) :
    σ.stopping = none ∧ (σ.task = .waiting ∧ σ.client.consumerFailed = false ∨
      σ.task = .ended ∧ σ.client.consumerFailed = true) := by
  cases h with
  | running _ task failed stopping => exact ⟨stopping, .inl ⟨task, failed⟩⟩
  | crashed _ task failed stopping => exact ⟨stopping, .inr ⟨task, failed⟩⟩
  | idle phase _ _ _ | stopping phase _ _ _ | stopped phase _ _ => rw [phase] at hp; cases hp

theorem Stage.of_idle (h : Stage σ) (hp : σ.client.phase = .idle) :
    σ.stopping = none ∧ σ.task = .absent ∧ σ.client.consumerFailed = false := by
  cases h with
  | idle _ task failed stopping => exact ⟨stopping, task, failed⟩
  | running phase _ _ _ | crashed phase _ _ _ | stopping phase _ _ _ | stopped phase _ _ =>
    rw [phase] at hp; cases hp

theorem Stage.of_stopping (h : Stage σ) (hs : σ.stopping.isSome = true) :
    σ.client.phase = .stopped ∧ σ.stopping = some (.ok ()) ∧ σ.task ≠ .absent := by
  cases h with
  | stopping phase task _ stopping => exact ⟨phase, stopping, task⟩
  | idle _ _ _ stopping | running _ _ _ stopping | crashed _ _ _ stopping | stopped _ _ stopping =>
    rw [stopping] at hs; cases hs

theorem Sound.filters_of_running (hσ : Sound capacity σ) (h : σ.client.phase = .running) :
    σ.client.transport.filters = (σ.client.subscriptions.map (·.filter)).eraseDups := by
  rw [hσ.filters, if_pos (by rw [Client.isRunning, h]; rfl)]

theorem Sound.connected_of_running (hσ : Sound capacity σ) (h : σ.client.phase = .running) :
    σ.client.transport.connected = true := by
  rw [hσ.connected, Client.isRunning, h]
  rfl

theorem Sound.filters_of_not_running (hσ : Sound capacity σ) (h : σ.client.phase ≠ .running) :
    σ.client.transport.filters = [] := by
  rw [hσ.filters, if_neg (by simpa [Client.isRunning] using h)]

theorem Sound.queue_eq_nil (hσ : Sound capacity σ) (h : σ.task = .absent ∨ σ.task = .ended) :
    σ.client.mailbox.queue = [] := by
  rw [← hσ.quiet h]
  rfl

theorem effect_subscribe (s : Subscription κ) :
    Effect σ (.request (.subscribe s)) (σ.serve (.subscribe s)) := by
  obtain ⟨⟨transport, mailbox, subscriptions, phase, failed, log⟩, task, stopping⟩ := σ
  cases phase with
  | idle => exact .registered rfl
  | running =>
    simp only [serve, Client.subscribe, Client.subscribe_loopback]
    exact .subscribed rfl
  | stopped => exact .refused rfl

theorem effect_start (hσ : Sound capacity σ) (runtime : Bool) :
    Effect σ (.request (.start runtime)) (σ.serve (.start runtime)) := by
  have hfilters := hσ.filters_of_not_running
  obtain ⟨⟨⟨connected, filters, published⟩, mailbox, subscriptions, phase, failed, log⟩, task, stopping⟩ := σ
  cases phase with
  | idle =>
    cases runtime with
    | false => exact .refused rfl
    | true =>
      obtain rfl : filters = [] := hfilters (by simp)
      simp only [serve, Client.start, Client.call, Loopback.transport]
      have h := Client.subscribeAll_loopback (κ := κ)
      simp only [Loopback.transport] at h
      simp only [h]
      exact .started rfl
  | running => exact .refused rfl
  | stopped => exact .refused rfl

theorem effect_publish (hσ : Sound capacity σ) (message : Message) :
    Effect σ (.request (.publish message)) (σ.serve (.publish message)) := by
  by_cases hp : σ.client.phase = .running
  · rw [serve, Client.publish_loopback hp (hσ.connected_of_running hp),
      Client.inject_loopback (hσ.connected_of_running hp) (hσ.filters_of_running hp)]
    exact .published hp
  · have h : σ.serve (.publish message) = σ := by
      simp only [serve, Client.publish]
    rw [h]
    exact .refused (by simpa [Client.refuses, Client.isRunning] using hp)

theorem effect_inject (hσ : Sound capacity σ) (message : Message) :
    Effect σ (.request (.inject message)) (σ.serve (.inject message)) := by
  by_cases hp : σ.client.phase = .running
  · rw [serve, Client.inject_loopback (hσ.connected_of_running hp) (hσ.filters_of_running hp)]
    exact .injected hp
  · have hc : σ.client.transport.connected = false := by
      rw [hσ.connected, Client.isRunning]
      simpa using hp
    have h : σ.serve (.inject message) = σ := by
      simp only [serve, Client.inject, Loopback.inject, hc, Bool.not_false, if_true]
    rw [h]
    exact .refused (by simpa [Client.refuses, Client.isRunning] using hp)

theorem effect_stop : Effect σ (.request .stop) (σ.serve .stop) := by
  obtain ⟨⟨transport, mailbox, subscriptions, phase, failed, log⟩, task, stopping⟩ := σ
  cases phase with
  | idle => exact .retired (by simp)
  | running => exact .disconnected rfl
  | stopped => exact .retired (by simp)

theorem Sound.not_failed (hσ : Sound capacity σ) (htask : σ.task = .waiting ∨ σ.task = .draining) :
    σ.client.consumerFailed = false := by
  cases hσ.stage with
  | idle _ task _ _ => simp [task] at htask
  | running _ _ failed _ => exact failed
  | crashed _ task _ _ => simp [task] at htask
  | stopping _ _ failed _ =>
    rw [Bool.eq_false_iff]
    intro hf
    simp [failed hf] at htask
  | stopped _ task _ => rcases task with task | task <;> simp [task] at htask

theorem effect_message (hσ : Sound capacity σ) (h : σ.ready .message = true) :
    Effect σ (.turn .message) (σ.take .message) := by
  simp only [ready, Bool.and_eq_true, Bool.or_eq_true, beq_iff_eq, Bool.not_eq_true'] at h
  obtain ⟨htask, hqueue⟩ := h
  have hnone := hσ.not_failed htask
  cases hq : σ.client.mailbox.queue with
  | nil => simp [hq] at hqueue
  | cons message rest =>
    by_cases hf : ∃ s ∈ Client.handlersFor σ.client.subscriptions message, s.fails message = true
    · have htake := Effect.failed htask hq hf
      simp only [take, Client.consume, hq, Client.callHandlers_of_fail hf, Bool.or_true, if_true]
      exact htake
    · have hreturn : ∀ s ∈ Client.handlersFor σ.client.subscriptions message, s.fails message = false := by
        simpa using hf
      have htake := Effect.handled htask hq hreturn
      simp only [take, Client.consume, hq, Client.callHandlers_of_return hreturn, hnone, Bool.or_false,
        Bool.false_eq_true, if_false, List.map_map]
      simp only [hnone] at htake
      exact htake

/-- The transport has let go of the channel only when the client is being stopped. -/
theorem Sound.stopped_of_turn (hσ : Sound capacity σ) (htask : σ.task = .waiting ∨ σ.task = .draining)
    (h : σ.task = .waiting → σ.client.transport.connected = false) : σ.client.phase = .stopped := by
  cases hσ.stage with
  | idle _ task _ _ => simp [task] at htask
  | running phase task _ _ =>
    have hc := hσ.connected_of_running phase
    rw [h task] at hc
    cases hc
  | crashed _ task _ _ => simp [task] at htask
  | stopping phase _ _ _ => exact phase
  | stopped phase _ _ => exact phase

theorem effect_take (hσ : Sound capacity σ) {t : Turn} (h : σ.ready t = true) :
    Effect σ (.turn t) (σ.take t) := by
  cases t with
  | message => exact effect_message hσ h
  | channelEnd =>
    simp only [ready, Bool.and_eq_true, beq_iff_eq, Bool.not_eq_true', List.isEmpty_iff] at h
    obtain ⟨⟨htask, hc⟩, hqueue⟩ := h
    exact .finished (.inl rfl) (hσ.stopped_of_turn (.inl htask) fun _ => hc) (.inl htask) hqueue
  | shutdown =>
    simp only [ready, Bool.and_eq_true, beq_iff_eq] at h
    exact .shutDown h.1 h.2
  | drained =>
    simp only [ready, Bool.and_eq_true, beq_iff_eq, List.isEmpty_iff] at h
    obtain ⟨htask, hqueue⟩ := h
    exact .finished (.inr rfl) (hσ.stopped_of_turn (.inr htask) fun hw => by simp [hw] at htask)
      (.inr htask) hqueue

theorem step_request_eq_some_iff {r : Request κ} :
    σ.step (.request r) = some σ' ↔ σ.stopping.isSome = false ∧ σ.serve r = σ' := by
  simp [step]

theorem step_turn_eq_some_iff {t : Turn} :
    σ.step (.turn t) = some σ' ↔ σ.ready t = true ∧ σ.take t = σ' := by
  simp [step]

theorem step_joined_eq_some_iff :
    σ.step .joined = some σ' ↔
      σ.stopping.isSome = true ∧ σ.task = .ended ∧ { σ with stopping := none } = σ' := by
  simp [step, and_assoc]

theorem effect_of_step (hσ : Sound capacity σ) (h : σ.step event = some σ') : Effect σ event σ' := by
  cases event with
  | request r =>
    obtain ⟨-, rfl⟩ := step_request_eq_some_iff.1 h
    cases r with
    | subscribe s => exact effect_subscribe s
    | start runtime => exact effect_start hσ runtime
    | publish message => exact effect_publish hσ message
    | inject message => exact effect_inject hσ message
    | stop => exact effect_stop
  | turn t =>
    obtain ⟨hready, rfl⟩ := step_turn_eq_some_iff.1 h
    exact effect_take hσ hready
  | joined =>
    obtain ⟨hstop, htask, rfl⟩ := step_joined_eq_some_iff.1 h
    exact .joined htask hstop

end Session

end FlowScript.Channel
