/-
Who hears of the messages of a run whose handlers return. A message that the
consumer takes calls each subscription that it is for, once and in the order
of registration; a subscription so hears of what is taken after it was
registered and is for it, in the order it was sent; and whatever turns the
consumer takes, a call to stop returns when nothing is left
(`delivery_of_run`).
-/
import FlowScript.Proofs.Accounting

namespace FlowScript.Channel

variable {κ : Type}

namespace Client

/-- The messages that a handler was called with, in order. -/
def heard [DecidableEq κ] (handler : κ) (log : List (κ × Message)) : List Message :=
  log.filterMap fun call => if call.1 = handler then some call.2 else none

section

variable [DecidableEq κ]

theorem heard_append (handler : κ) (first second : List (κ × Message)) :
    heard handler (first ++ second) = heard handler first ++ heard handler second :=
  List.filterMap_append

theorem heard_flatMap {α : Type} (handler : κ) (items : List α) (f : α → List (κ × Message)) :
    heard handler (items.flatMap f) = items.flatMap fun item => heard handler (f item) := by
  induction items with
  | nil => rfl
  | cons item items ih => rw [List.flatMap_cons, List.flatMap_cons, heard_append, ih]

theorem heard_calls_of_not_mem {handler : κ} {subscriptions : List (Subscription κ)}
    (h : handler ∉ subscriptions.map (·.handler)) (message : Message) :
    heard handler (calls subscriptions message) = [] := by
  rw [heard, List.filterMap_eq_nil_iff]
  intro call hcall
  obtain ⟨s, hs, rfl⟩ := List.mem_map.1 hcall
  rw [if_neg]
  rintro rfl
  exact h (List.mem_map_of_mem (List.mem_filter.1 hs).1)

/-- A handler that only one subscription calls hears of a message once if that
subscription is for it, whatever others are for it as well. -/
theorem heard_calls {first later : List (Subscription κ)} {s : Subscription κ}
    (hfirst : s.handler ∉ first.map (·.handler)) (hlater : s.handler ∉ later.map (·.handler))
    (message : Message) :
    heard s.handler (calls (first ++ s :: later) message) =
      [message].filter fun m => filterMatches s.filter m.topic := by
  have hsplit : calls (first ++ s :: later) message =
      calls first message ++ (calls [s] message ++ calls later message) := by
    simp only [calls, handlersFor, ← List.map_append, ← List.filter_append, List.singleton_append]
  rw [hsplit, heard_append, heard_append, heard_calls_of_not_mem hfirst, heard_calls_of_not_mem hlater,
    List.nil_append, List.append_nil]
  cases hm : filterMatches s.filter message.topic <;> simp [heard, calls, handlersFor, hm]

theorem heard_dispatched {first later : List (Subscription κ)} {s : Subscription κ}
    (hfirst : s.handler ∉ first.map (·.handler)) (hlater : s.handler ∉ later.map (·.handler))
    (messages : List Message) :
    heard s.handler (messages.flatMap (calls (first ++ s :: later))) =
      messages.filter fun m => filterMatches s.filter m.topic := by
  rw [heard_flatMap]
  simp only [heard_calls hfirst hlater]
  rw [← List.filter_flatMap, List.flatMap_singleton']

theorem heard_dispatched_of_not_mem {handler : κ} {subscriptions : List (Subscription κ)}
    (h : handler ∉ subscriptions.map (·.handler)) (messages : List Message) :
    heard handler (messages.flatMap (calls subscriptions)) = [] := by
  rw [heard_flatMap, List.flatMap_eq_nil_iff]
  exact fun message _ => heard_calls_of_not_mem h message

end

end Client

namespace Session

variable {capacity : Nat} {σ σ' : Session κ} {event : Event κ}

/-- A client that has left its first phase does not come back to it. -/
theorem Effect.idle (h : Effect σ event σ') (hp : σ'.client.phase = .idle) : σ.client.phase = .idle := by
  cases h with
  | published _ | injected _ => simpa using hp
  | started _ | retired _ | disconnected _ => cases hp
  | refused _ | registered _ | subscribed _ | handled _ _ _ | failed _ _ _ | finished _ _ _ _
  | shutDown _ _ | joined _ _ => exact hp

theorem Sound.not_idle_of_dispatched {x : Moment κ} (hx : x.before.Sound capacity)
    (hd : x.dispatched ≠ []) : x.before.client.phase ≠ .idle := by
  intro hp
  have hq := hx.queue_eq_nil (.inl (hx.stage.of_idle hp).2.1)
  apply hd
  unfold Moment.dispatched
  split
  · rw [hq, List.take_nil]
  · rfl

/-- Nothing is queued when a call to stop returns. -/
theorem Sound.queue_of_stopResult (hσ : Sound capacity σ) (hstep : σ.step event = some σ')
    {result : Except Fault Unit} (h : σ.stopResult? event = some result) :
    σ.client.mailbox.queue = [] := by
  refine hσ.queue_eq_nil ?_
  cases event with
  | request r =>
    cases r with
    | stop =>
      obtain ⟨hstopping, -⟩ := step_request_eq_some_iff.1 hstep
      have hp : σ.client.phase ≠ .running := by
        intro hp
        simp [stopResult?, hp] at h
      cases hσ.stage with
      | idle _ task _ _ => exact .inl task
      | running phase _ _ _ | crashed phase _ _ _ => exact absurd phase hp
      | stopping _ _ _ stopping => simp [stopping] at hstopping
      | stopped _ task _ => exact task
    | subscribe _ | start _ | publish _ | inject _ => cases h
  | turn _ => cases h
  | joined =>
    cases effect_of_step hσ hstep with
    | joined htask _ => exact .inr htask

end Session

namespace Run

variable {capacity : Nat} {past : List (Moment κ)} {σ : Session κ}

/-- The log, dispatch by dispatch. -/
theorem log_eq (run : Run capacity past σ) (hsteady : Steady past) :
    σ.client.log = past.flatMap fun x =>
      x.dispatched.flatMap (Client.calls x.before.client.subscriptions) := by
  induction run with
  | new h =>
    obtain rfl := Session.create_loopback h
    rfl
  | next run hstep ih =>
    have hpast := hsteady.of_append
    rw [List.flatMap_append, List.flatMap_singleton, ← ih hpast]
    exact (Session.effect_of_step run.sound hstep).log (run.handlers_return hpast)

theorem idle_before (run : Run capacity past σ) (hp : σ.client.phase = .idle) :
    ∀ x ∈ past, x.before.client.phase = .idle := by
  induction run with
  | new _ =>
    intro x hx
    cases hx
  | next run hstep ih =>
    have hidle := (Session.effect_of_step run.sound hstep).idle hp
    intro x hx
    rcases List.mem_append.1 hx with hx | hx
    · exact ih hidle x hx
    · rw [List.mem_singleton.1 hx]
      exact hidle

theorem not_idle_of_split {earlier later : List (Moment κ)} {x : Moment κ}
    (run : Run capacity (earlier ++ x :: later) σ) (hp : x.before.client.phase ≠ .idle) :
    ∀ y ∈ x :: later, y.before.client.phase ≠ .idle := by
  intro y hy hidle
  rcases List.mem_cons.1 hy with rfl | hy
  · exact hp hidle
  · obtain ⟨between, rest, rfl⟩ := List.append_of_mem hy
    rw [← List.cons_append, ← List.append_assoc] at run
    exact hp (run.before.1.idle_before hidle x (List.mem_append_right _ List.mem_cons_self))

/-- The subscriptions at a moment are the first of those at the end. -/
theorem subscriptions_of_split {earlier later : List (Moment κ)} {x : Moment κ}
    (run : Run capacity (earlier ++ x :: later) σ) :
    σ.client.subscriptions =
      x.before.client.subscriptions ++ (x.registered ++ later.flatMap Moment.registered) := by
  rw [run.subscriptions_eq, run.before.1.subscriptions_eq, List.flatMap_append, List.flatMap_cons]

/-- If nobody subscribes to a running client, all that is dispatched is for
the subscriptions that are there at the end. -/
theorem subscriptions_of_dispatched (run : Run capacity past σ)
    (hfirst : ∀ x ∈ past, ∀ s, x.event = .request (.subscribe s) → x.before.client.phase ≠ .running)
    {x : Moment κ} (hx : x ∈ past) (hd : x.dispatched ≠ []) :
    x.before.client.subscriptions = σ.client.subscriptions := by
  obtain ⟨earlier, later, rfl, hearlier, -⟩ := run.before_of_mem hx
  have hp := hearlier.sound.not_idle_of_dispatched hd
  -- From the dispatch on, the client is past its start, and then nobody subscribes.
  have hnone : ∀ y ∈ x :: later, y.registered = [] := by
    intro y hy
    have hyp := run.not_idle_of_split hp y hy
    unfold Moment.registered
    split
    next s hevent =>
      have hyr := hfirst y (List.mem_append_right _ hy) s hevent
      rw [if_pos]
      cases hphase : y.before.client.phase with
      | idle => exact absurd hphase hyp
      | running => exact absurd hphase hyr
      | stopped => rfl
    next => rfl
  rw [run.subscriptions_of_split, ← List.flatMap_cons, List.flatMap_eq_nil_iff.2 hnone, List.append_nil]

/-- A handler that only one subscription calls hears of what is dispatched
after that subscription was made and is for it. -/
theorem heard_eq [DecidableEq κ] {earlier later : List (Moment κ)} {x : Moment κ} {s : Subscription κ}
    (run : Run capacity (earlier ++ x :: later) σ) (hsteady : Steady (earlier ++ x :: later))
    (hevent : x.event = .request (.subscribe s)) (hp : x.before.client.phase ≠ .stopped)
    (hone : (σ.client.subscriptions.map (·.handler)).count s.handler = 1) :
    Client.heard s.handler σ.client.log =
      (later.flatMap Moment.dispatched).filter fun m => filterMatches s.filter m.topic := by
  have hx : x.registered = [s] := by simp [Moment.registered, hevent, hp]
  have hd : x.dispatched = [] := by simp [Moment.dispatched, hevent]
  obtain ⟨hfirst, hlater⟩ : s.handler ∉ x.before.client.subscriptions.map (·.handler) ∧
      s.handler ∉ (later.flatMap Moment.registered).map (·.handler) := by
    rw [run.subscriptions_of_split, hx] at hone
    simp only [List.singleton_append, List.map_append, List.map_cons, List.count_append,
      List.count_cons_self] at hone
    constructor <;> rw [← List.count_eq_zero] <;> omega
  -- Before the subscription nobody calls the handler.
  have hbefore : ∀ y ∈ earlier, s.handler ∉ y.before.client.subscriptions.map (·.handler) := by
    intro y hy hmem
    obtain ⟨front, back, rfl⟩ := List.append_of_mem hy
    apply hfirst
    rw [run.before.1.subscriptions_of_split, List.map_append]
    exact List.mem_append_left _ hmem
  have hafter : ∀ y ∈ later, ∃ more, y.before.client.subscriptions =
      x.before.client.subscriptions ++ s :: more ∧ s.handler ∉ more.map (·.handler) := by
    intro y hy
    obtain ⟨front, back, rfl⟩ := List.append_of_mem hy
    rw [← List.cons_append, ← List.append_assoc] at run
    refine ⟨front.flatMap Moment.registered, ?_, fun hmem => hlater ?_⟩
    · rw [run.before.1.subscriptions_of_split, hx, List.singleton_append]
    · rw [List.flatMap_append, List.map_append]
      exact List.mem_append_left _ hmem
  rw [run.log_eq hsteady, Client.heard_flatMap, List.flatMap_append, List.flatMap_cons, hd,
    List.filter_flatMap, List.flatMap_eq_nil_iff.2, List.nil_append, List.flatMap_nil]
  · refine congrArg List.flatten (List.map_congr_left fun y hy => ?_)
    obtain ⟨more, hsubs, hmore⟩ := hafter y hy
    rw [hsubs]
    exact Client.heard_dispatched hfirst hmore _
  · exact fun y hy => Client.heard_dispatched_of_not_mem (hbefore y hy) _

/-- If nobody subscribes to a running client, the log says what was dispatched, whenever that was. -/
theorem log_of_dispatched (run : Run capacity past σ) (hsteady : Steady past)
    (hfirst : ∀ x ∈ past, ∀ s, x.event = .request (.subscribe s) → x.before.client.phase ≠ .running) :
    σ.client.log = (past.flatMap Moment.dispatched).flatMap (Client.calls σ.client.subscriptions) := by
  rw [run.log_eq hsteady, List.flatMap_assoc]
  refine congrArg List.flatten (List.map_congr_left fun x hx => ?_)
  cases hd : x.dispatched with
  | nil => rfl
  | cons message rest => rw [run.subscriptions_of_dispatched hfirst hx (by simp [hd])]

theorem queue_of_stopped (run : Run capacity past σ) (hp : σ.client.phase = .stopped)
    (hstop : σ.stopping = none) : σ.client.mailbox.queue = [] := by
  cases run.sound.stage with
  | idle phase _ _ _ | running phase _ _ _ | crashed phase _ _ _ => rw [phase] at hp; cases hp
  | stopping _ _ _ stopping => rw [stopping] at hstop; cases hstop
  | stopped _ task _ => exact run.sound.queue_eq_nil task

end Run

/-- While handlers return, whatever turns the consumer takes: what is
dispatched is what was accepted, each once and in that order, and all of it
when a call to stop returns; a dispatch calls each subscription that is there
and is for the message, once and in the order of registration; so a
subscription, told from others by its handler, hears of what is dispatched
after it was made and is for it; and if all subscriptions were made before the
start, the log says no more than what was accepted. -/
theorem delivery_of_run [DecidableEq κ] {capacity : Nat} {past : List (Moment κ)} {σ : Session κ}
    (run : Run capacity past σ) (hsteady : Steady past) :
    past.flatMap Moment.dispatched <+: past.flatMap Moment.accepted ∧
    (∀ earlier x later, past = earlier ++ x :: later → x.before.stopResult? x.event = some (.ok ()) →
      earlier.flatMap Moment.dispatched = earlier.flatMap Moment.accepted) ∧
    (∀ x ∈ past, x.after.client.log =
      x.before.client.log ++ x.dispatched.flatMap (Client.calls x.before.client.subscriptions)) ∧
    (∀ earlier x later s, past = earlier ++ x :: later → x.event = .request (.subscribe s) →
      x.before.client.phase ≠ .stopped →
      (σ.client.subscriptions.map (·.handler)).count s.handler = 1 →
      Client.heard s.handler σ.client.log =
        (later.flatMap Moment.dispatched).filter fun m => filterMatches s.filter m.topic) ∧
    ((∀ x ∈ past, ∀ s, x.event = .request (.subscribe s) → x.before.client.phase ≠ .running) →
      σ.client.log = (past.flatMap Moment.dispatched).flatMap (Client.calls σ.client.subscriptions) ∧
      (σ.client.phase = .stopped → σ.stopping = none →
        σ.client.log = (past.flatMap Moment.accepted).flatMap (Client.calls σ.client.subscriptions))) := by
  have hbalance := run.balance hsteady
  refine ⟨⟨_, hbalance⟩, ?_, ?_, ?_, ?_⟩
  · rintro earlier x later rfl hresult
    obtain ⟨hearlier, hstep⟩ := run.before
    have h := hearlier.balance hsteady.of_append
    rwa [hearlier.sound.queue_of_stopResult hstep hresult, List.append_nil] at h
  · intro x hx
    exact run.log_of_mem hsteady hx
  · rintro earlier x later s rfl hevent hp hone
    exact run.heard_eq hsteady hevent hp hone
  · intro hfirst
    have hlog := run.log_of_dispatched hsteady hfirst
    refine ⟨hlog, fun hp hstop => ?_⟩
    rw [run.queue_of_stopped hp hstop, List.append_nil] at hbalance
    rw [hlog, hbalance]

/-- Three subscriptions, a start, and a stop that the consumer notices one message late. -/
def noticedLate : List (Event String) :=
  [.request (.subscribe ⟨"a/#", "all", fun _ => false⟩),
    .request (.subscribe ⟨"a/+", "one", fun _ => false⟩),
    .request (.subscribe ⟨"a/#", "again", fun _ => false⟩), .request (.start true),
    .request (.publish ⟨"a/b", "1"⟩), .request (.publish ⟨"a/c", "2"⟩), .turn .message,
    .request (.inject ⟨"a", "3"⟩), .request .stop, .turn .message, .turn .shutdown, .turn .message,
    .turn .drained, .joined]

theorem delivery_of_noticedLate :
    ∃ past σ, Run 2 past σ ∧ past.map (·.event) = noticedLate ∧ Steady past ∧
      σ.client.log = [("all", ⟨"a/b", "1"⟩), ("one", ⟨"a/b", "1"⟩), ("again", ⟨"a/b", "1"⟩),
        ("all", ⟨"a/c", "2"⟩), ("one", ⟨"a/c", "2"⟩), ("again", ⟨"a/c", "2"⟩),
        ("all", ⟨"a", "3"⟩), ("again", ⟨"a", "3"⟩)] := by
  obtain ⟨past, σ, run, hevents, hcheck⟩ := Session.exists_run_of_playNew
    (fun past σ => past.all (fun x => x.registered.isEmpty || x.before.client.phase == .idle) &&
      σ.client.phase == .stopped && σ.stopping.isNone &&
      (past.flatMap Moment.accepted).flatMap (Client.calls σ.client.subscriptions) ==
        [("all", ⟨"a/b", "1"⟩), ("one", ⟨"a/b", "1"⟩), ("again", ⟨"a/b", "1"⟩),
          ("all", ⟨"a/c", "2"⟩), ("one", ⟨"a/c", "2"⟩), ("again", ⟨"a/c", "2"⟩),
          ("all", ⟨"a", "3"⟩), ("again", ⟨"a", "3"⟩)])
    (show (Session.playNew 2 noticedLate).any _ = true by decide)
  simp only [Bool.and_eq_true, beq_iff_eq, List.all_eq_true, Option.isNone_iff_eq_none] at hcheck
  obtain ⟨⟨⟨hfirst, hp⟩, hstop⟩, hlog⟩ := hcheck
  have hsteady : Steady past := by
    intro s hs message
    rw [hevents] at hs
    simp [noticedLate] at hs
    obtain rfl | rfl | rfl := hs <;> rfl
  refine ⟨past, σ, run, hevents, hsteady, ?_⟩
  obtain ⟨-, -, -, -, hall⟩ := delivery_of_run run hsteady
  refine ((hall fun x hx s hs hrunning => ?_).2 hp hstop).trans hlog
  have h := hfirst x hx
  simp [Moment.registered, hs, hrunning] at h

end FlowScript.Channel
