/-
The life of a client over the loopback transport. Only a start and a stop take
it to another phase, and never back (`Effect.phase`); when a call to stop has
returned nothing is left that could happen, and the session stays as it is,
whatever calls are made (`Run.eq_of_over`).
-/
import FlowScript.Proofs.Runs

namespace FlowScript.Channel

variable {κ : Type}

/-! ## Calls -/

namespace Client

variable {c : Client κ Loopback}

theorem start_of_idle (hp : c.phase = .idle) : (c.start Loopback.transport true).1 = .ok () := by
  obtain ⟨transport, mailbox, subscriptions, phase, failed, log⟩ := c
  obtain rfl : phase = .idle := hp
  have h := subscribeAll_loopback (κ := κ)
  simp only [Loopback.transport] at h
  simp only [start, call, Loopback.transport, h]
  rfl

/-- The transport refuses nothing, so a start fails only for want of a runtime
or because the client has been started or stopped before. -/
theorem start_cases (c : Client κ Loopback) (runtime : Bool) :
    (c.phase = .idle ∧ runtime = true ∧ (c.start Loopback.transport runtime).1 = .ok ()) ∨
    ∃ e, c.start Loopback.transport runtime = (.error e, c) ∧
      (e = .noRuntime ∧ c.phase = .idle ∧ runtime = false ∨
        e = .alreadyStarted ∧ c.phase = .running ∨ e = .stopped ∧ c.phase = .stopped) := by
  cases hp : c.phase with
  | idle =>
    cases runtime with
    | true => exact .inl ⟨rfl, rfl, start_of_idle hp⟩
    | false => exact .inr ⟨.noRuntime, by simp [start, hp], .inl ⟨rfl, rfl, rfl⟩⟩
  | running => exact .inr ⟨.alreadyStarted, by simp [start, hp], .inr (.inl ⟨rfl, rfl⟩)⟩
  | stopped => exact .inr ⟨.stopped, by simp [start, hp], .inr (.inr ⟨rfl, rfl⟩)⟩

theorem start_eq_ok_iff {runtime : Bool} :
    (c.start Loopback.transport runtime).1 = .ok () ↔ c.phase = .idle ∧ runtime = true := by
  rcases c.start_cases runtime with ⟨hp, hruntime, hok⟩ | ⟨e, he, hwhy⟩
  · exact ⟨fun _ => ⟨hp, hruntime⟩, fun _ => hok⟩
  · rw [he]
    constructor
    · intro h
      cases h
    · rintro ⟨hp, rfl⟩
      simp [hp] at hwhy

theorem publish_of_not_running (hr : c.isRunning = false) (message : Message) :
    c.publish Loopback.transport message = (.error .notRunning, c) := by
  unfold publish
  split
  next hp =>
    rw [isRunning, hp] at hr
    cases hr
  next => rfl

theorem inject_of_not_connected (hc : c.transport.connected = false) (message : Message) :
    c.inject message = (.error .closed, c) := by
  simp [inject, Loopback.inject, hc]

theorem stop_of_stopped (hp : c.phase = .stopped) (early : Nat) :
    c.stop Loopback.transport early = (.ok (), c) := by
  obtain ⟨transport, mailbox, subscriptions, phase, failed, log⟩ := c
  obtain rfl : phase = .stopped := hp
  rfl

end Client

/-! ## Phases -/

/-- The events that take a client from one phase to another. -/
inductive Phase.Moves : Phase → Event κ → Phase → Prop where
  | start : Moves .idle (.request (.start true)) .running
  | stop : Moves .running (.request .stop) .stopped
  /-- A client that was never started is stopped. -/
  | retire : Moves .idle (.request .stop) .stopped

namespace Session

variable {capacity : Nat} {σ σ' : Session κ} {event : Event κ}

theorem Effect.phase (h : Effect σ event σ') :
    σ'.client.phase = σ.client.phase ∨ Phase.Moves σ.client.phase event σ'.client.phase := by
  cases h with
  | started hp => exact .inr (hp ▸ .start)
  | disconnected hp => exact .inr (hp ▸ .stop)
  | retired hp =>
    cases hphase : σ.client.phase with
    | idle => exact .inr .retire
    | running => exact absurd hphase hp
    | stopped => exact .inl rfl
  | published _ | injected _ => exact .inl (Client.receive_phase _ _)
  | refused _ | registered _ | subscribed _ | handled _ _ _ | failed _ _ _ | finished _ _ _ _
  | shutDown _ _ | joined _ _ => exact .inl rfl

/-! ## After a stop -/

/-- Whether the client has been stopped and the call to stop has returned. -/
structure Over (σ : Session κ) : Prop where
  phase : σ.client.phase = .stopped
  stopping : σ.stopping = none

theorem Sound.task_of_over (hσ : Sound capacity σ) (h : Over σ) :
    ¬ (σ.task = .waiting ∨ σ.task = .draining) := by
  cases hσ.stage with
  | idle phase _ _ _ | running phase _ _ _ | crashed phase _ _ _ =>
    rw [h.phase] at phase
    cases phase
  | stopping _ _ _ stopping =>
    rw [h.stopping] at stopping
    cases stopping
  | stopped _ task _ => rcases task with task | task <;> simp [task]

/-- Whatever happens then changes nothing. -/
theorem Effect.eq_of_over (hσ : Sound capacity σ) (h : Over σ) (heffect : Effect σ event σ') : σ' = σ := by
  have htask := hσ.task_of_over h
  have hp := h.phase
  have hs := h.stopping
  cases heffect with
  | refused _ => rfl
  | registered hphase | subscribed hphase | started hphase | published hphase | injected hphase
  | disconnected hphase =>
    rw [hp] at hphase
    cases hphase
  | retired _ => rw [← hp]
  | handled hturn _ _ | failed hturn _ _ | finished _ _ hturn _ => exact absurd hturn htask
  | shutDown hturn _ => exact absurd (.inl hturn) htask
  | joined _ hstop =>
    rw [hs] at hstop
    cases hstop

/-- When a call to stop returns, it is over; and it returns that all went well
or that a handler has failed. -/
theorem Sound.over_of_stopResult (hσ : Sound capacity σ) (hstep : σ.step event = some σ')
    {result : Except Fault Unit} (h : σ.stopResult? event = some result) :
    Over σ' ∧ (result = .ok () ∨ result = .error .consumerFailed ∧ σ.client.consumerFailed = true) := by
  cases event with
  | request r =>
    cases r with
    | stop =>
      obtain ⟨hstopping, -⟩ := step_request_eq_some_iff.1 hstep
      have hnone : σ.stopping = none := by simpa using hstopping
      cases effect_of_step hσ hstep with
      | refused hrefuses => cases hrefuses
      | retired hp =>
        have hresult : result = .ok () := by
          simp only [stopResult?, hp, if_false, Client.stop, Option.some.injEq] at h
          exact h.symm
        exact ⟨⟨rfl, hnone⟩, .inl hresult⟩
      | disconnected hp => simp [stopResult?, hp] at h
    | subscribe _ | start _ | publish _ | inject _ => cases h
  | turn _ => cases h
  | joined =>
    obtain ⟨hstop, -, rfl⟩ := step_joined_eq_some_iff.1 hstep
    obtain ⟨hp, hok, -⟩ := hσ.stage.of_stopping hstop
    refine ⟨⟨hp, rfl⟩, ?_⟩
    simp only [stopResult?, hok] at h
    split at h
    next hfailed => exact .inr ⟨(Option.some.inj h).symm, hfailed⟩
    next => exact .inl (Option.some.inj h).symm

end Session

/-! ## Runs -/

namespace Run

variable {capacity : Nat} {past earlier later : List (Moment κ)} {x : Moment κ} {σ : Session κ}

theorem idle_of_nil (run : Run capacity past σ) (hpast : past = []) : σ.client.phase = .idle := by
  cases run with
  | new h =>
    obtain rfl := Session.create_loopback h
    rfl
  | next _ _ => simp at hpast

/-- What every event keeps holds at the end if it holds after some moment. -/
theorem keeps {P : Session κ → Prop}
    (hkeep : ∀ {τ τ' : Session κ} {event : Event κ}, τ.Sound capacity → P τ → τ.Effect event τ' → P τ')
    (run : Run capacity (earlier ++ x :: later) σ) (hx : P x.after) : P σ := by
  generalize hpast : earlier ++ x :: later = past at run
  induction run generalizing later with
  | new _ => simp at hpast
  | next run hstep ih =>
    rcases List.eq_nil_or_concat later with rfl | ⟨later, y, rfl⟩
    · obtain ⟨-, hlast⟩ := List.append_inj' hpast rfl
      cases hlast
      exact hx
    · rw [List.concat_eq_append, ← List.cons_append, ← List.append_assoc] at hpast
      exact hkeep run.sound (ih (List.append_inj' hpast rfl).1) (Session.effect_of_step run.sound hstep)

theorem eq_of_over (run : Run capacity (earlier ++ x :: later) σ) (hx : x.after.Over) : σ = x.after :=
  run.keeps (P := (· = x.after))
    (fun hτ heq heffect => (heffect.eq_of_over hτ (heq ▸ hx)).trans heq) rfl

end Run

/-- A client begins idle, is started at most once and stopped for good, and it
is connected as long as it runs. It is started only from idle and with a
runtime, and a start that fails leaves it and its transport as they are; and
so does publishing while it does not run, which always fails. Once a call to
stop has returned, which it does with success or because a handler has failed,
the client is stopped and its transport disconnected. From then on the session
does not change, its drops, records, subscriptions and log included: a stop
succeeds, and every other call is refused. -/
theorem lifecycle_of_run {capacity : Nat} {past : List (Moment κ)} {σ : Session κ}
    (run : Run capacity past σ) :
    (past = [] → σ.client.phase = .idle) ∧
    (∀ x ∈ past, x.after.client.phase = x.before.client.phase ∨
      Phase.Moves x.before.client.phase x.event x.after.client.phase) ∧
    (σ.client.isRunning = true ↔ σ.client.transport.connected = true) ∧
    (∀ runtime, (σ.client.start Loopback.transport runtime).1 = .ok () ↔
      σ.client.phase = .idle ∧ runtime = true) ∧
    (∀ runtime e, (σ.client.start Loopback.transport runtime).1 = .error e →
      (σ.client.start Loopback.transport runtime).2 = σ.client ∧
      (e = .noRuntime ∧ σ.client.phase = .idle ∧ runtime = false ∨
        e = .alreadyStarted ∧ σ.client.phase = .running ∨ e = .stopped ∧ σ.client.phase = .stopped)) ∧
    (σ.client.isRunning = false → ∀ message,
      σ.client.publish Loopback.transport message = (.error .notRunning, σ.client)) ∧
    ∀ earlier x later result, past = earlier ++ x :: later → x.before.stopResult? x.event = some result →
      (result = .ok () ∨ result = .error .consumerFailed ∧ x.before.client.consumerFailed = true) ∧
      σ = x.after ∧ σ.client.phase = .stopped ∧ σ.client.transport.connected = false ∧
      (∀ s, σ.client.subscribe Loopback.transport s = (.error .stopped, σ.client)) ∧
      (∀ runtime, σ.client.start Loopback.transport runtime = (.error .stopped, σ.client)) ∧
      (∀ message, σ.client.publish Loopback.transport message = (.error .notRunning, σ.client)) ∧
      (∀ message, σ.client.inject message = (.error .closed, σ.client)) ∧
      ∀ early, σ.client.stop Loopback.transport early = (.ok (), σ.client) := by
  have hconnected := run.sound.connected
  refine ⟨run.idle_of_nil, fun x hx => ?_, by rw [hconnected], fun _ => Client.start_eq_ok_iff,
    fun runtime e he => ?_, Client.publish_of_not_running, ?_⟩
  · obtain ⟨_, _, -, -, heffect⟩ := run.before_of_mem hx
    exact heffect.phase
  · rcases σ.client.start_cases runtime with ⟨-, -, hok⟩ | ⟨e', he', hwhy⟩
    · rw [hok] at he
      cases he
    · rw [he'] at he
      cases he
      exact ⟨by rw [he'], hwhy⟩
  · rintro earlier x later result rfl hresult
    obtain ⟨hearlier, hstep⟩ := run.before
    obtain ⟨hover, hwhy⟩ := hearlier.sound.over_of_stopResult hstep hresult
    have hlast := run.eq_of_over hover
    rw [← hlast] at hover
    have hp := hover.phase
    have hr : σ.client.isRunning = false := by rw [Client.isRunning, hp]; rfl
    have hc : σ.client.transport.connected = false := hconnected.trans hr
    exact ⟨hwhy, hlast, hp, hc, fun s => by rw [Client.subscribe, hp], fun runtime => by rw [Client.start, hp],
      Client.publish_of_not_running hr, Client.inject_of_not_connected hc, Client.stop_of_stopped hp⟩

/-- A handler fails while the client runs, which is noticed by its stop; then everything is tried again. -/
def crashed : List (Event String) :=
  [.request (.subscribe ⟨"a/#", "one", fun message => message.payload == "bad"⟩), .request (.start false),
    .request (.start true), .request (.start true), .request (.publish ⟨"a", "good"⟩), .turn .message,
    .request (.inject ⟨"a/b", "bad"⟩), .turn .message, .request (.publish ⟨"a", "late"⟩), .request .stop,
    .joined, .request (.subscribe ⟨"b", "two", fun _ => false⟩), .request (.start true),
    .request (.publish ⟨"a", "gone"⟩), .request (.inject ⟨"a", "gone"⟩), .request .stop]

theorem lifecycle_of_crashed :
    ∃ past σ, Run 1 past σ ∧ past.map (·.event) = crashed ∧
      (∃ x ∈ past, x.before.stopResult? x.event = some (.error .consumerFailed) ∧ σ = x.after) ∧
      σ.client.transport.connected = false ∧ σ.client.log = [("one", ⟨"a", "good"⟩)] ∧
      σ.client.start Loopback.transport true = (.error .stopped, σ.client) := by
  obtain ⟨past, σ, run, hevents, hcheck⟩ := Session.exists_run_of_playNew
    (fun past σ => σ.client.log == [("one", ⟨"a", "good"⟩)] && past.any fun x =>
      (x.before.stopResult? x.event).any fun
        | .ok () => false
        | .error fault => fault == .consumerFailed)
    (show (Session.playNew 1 crashed).any _ = true by decide)
  rw [Bool.and_eq_true, beq_iff_eq, List.any_eq_true] at hcheck
  obtain ⟨hlog, x, hx, hresult⟩ := hcheck
  obtain ⟨result, hstop, hfault⟩ := (Option.any_eq_true ..).1 hresult
  cases result with
  | ok => cases hfault
  | error fault =>
    obtain rfl : fault = .consumerFailed := beq_iff_eq.1 hfault
    obtain ⟨earlier, later, hpast⟩ := List.append_of_mem hx
    obtain ⟨-, -, -, -, -, -, hover⟩ := lifecycle_of_run run
    obtain ⟨-, hlast, -, hconnected, -, hstart, -⟩ := hover earlier x later _ hpast hstop
    exact ⟨past, σ, run, hevents, ⟨x, hx, hstop, hlast⟩, hconnected, hlog, hstart true⟩

end FlowScript.Channel
