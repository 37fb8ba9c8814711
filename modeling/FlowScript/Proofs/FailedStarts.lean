/-
Starts that fail, over any transport. The transport is asked to connect and
then to subscribe to each filter, and the first call that it refuses ends the
start. The client is then idle as before, with the subscriptions it had and
without a consumer (`failedStart_of_error`). What has been asked of the
transport by then is not taken back: after a refused subscription it stays
connected, and a stop leaves it so (`attached_of_refused`).
-/
import FlowScript.Channel.Client

namespace FlowScript.Channel

/-! ## What a transport is asked -/

/-- A call to a transport with what it is about. -/
inductive Asked where
  | connect
  | disconnect
  | publish (message : Message)
  | subscribe (filter : String)
deriving DecidableEq, Repr

/-- The calls that a transport has had, and whether each succeeded. -/
abbrev Calls := List (Asked × Bool)

namespace Calls

/-- Whether a transport is connected after calls, if `attached` says whether it was before. -/
def attachedFrom (attached : Bool) : Calls → Bool
  | [] => attached
  | (.connect, true) :: calls => attachedFrom true calls
  | (.disconnect, _) :: calls => attachedFrom false calls
  | _ :: calls => attachedFrom attached calls

/-- Whether a connection has been made and no call to disconnect has followed. -/
def attached (calls : Calls) : Bool := attachedFrom false calls

theorem attachedFrom_append (attached : Bool) (front rest : Calls) :
    attachedFrom attached (front ++ rest) = attachedFrom (attachedFrom attached front) rest := by
  induction front generalizing attached with
  | nil => rfl
  | cons call front ih =>
    obtain ⟨asked, accepted⟩ := call
    cases asked <;> cases accepted <;> exact ih _

theorem attachedFrom_subscribes (attached : Bool) (filters : List String) :
    attachedFrom attached (filters.map fun filter => (.subscribe filter, true)) = attached := by
  induction filters with
  | nil => rfl
  | cons filter filters ih => exact ih

end Calls

/-- A transport's state with the calls that it has had. -/
structure Recorded (σ : Type) where
  inner : σ
  calls : Calls

namespace Recorded

variable {σ : Type}

/-- A call that is passed on and written down with its result. -/
def noted (asked : Asked) (call : Call σ) : Call (Recorded σ) := fun s m =>
  let (result, inner, m) := call s.inner m
  (result, { inner, calls := s.calls ++ [(asked, result.isOk)] }, m)

/-- A transport that writes down what it is asked, and is otherwise the same. -/
def transport (t : Transport σ) : Transport (Recorded σ) :=
  { connect := noted .connect t.connect
    disconnect := noted .disconnect t.disconnect
    publish := fun message => noted (.publish message) (t.publish message)
    subscribe := fun filter => noted (.subscribe filter) (t.subscribe filter) }

end Recorded

/-- A transport that drops no message while it connects and subscribes. -/
structure Transport.Quiet {σ : Type} (t : Transport σ) : Prop where
  connect : ∀ s m, (t.connect s m).2.2.dropped = m.dropped
  subscribe : ∀ filter s m, (t.subscribe filter s m).2.2.dropped = m.dropped

namespace Client

variable {κ σ : Type}

/-- The client over the transport itself. -/
def unrecorded (c : Client κ (Recorded σ)) : Client κ σ := { c with transport := c.transport.inner }

/-- A client that has not been started: nobody receives from its mailbox. -/
structure IsIdle (c : Client κ σ) : Prop where
  phase : c.phase = .idle
  closed : c.mailbox.isOpen = false
  empty : c.mailbox.queue = []

/-- Two clients that differ in nothing but the transport and the mailbox. -/
structure SameSelf (c c' : Client κ σ) : Prop where
  subscriptions : c'.subscriptions = c.subscriptions
  phase : c'.phase = c.phase
  consumerFailed : c'.consumerFailed = c.consumerFailed
  log : c'.log = c.log

theorem SameSelf.refl (c : Client κ σ) : SameSelf c c := ⟨rfl, rfl, rfl, rfl⟩

theorem SameSelf.trans {c c' c'' : Client κ σ} (h : SameSelf c c') (h' : SameSelf c' c'') : SameSelf c c'' :=
  ⟨h'.subscriptions.trans h.subscriptions, h'.phase.trans h.phase, h'.consumerFailed.trans h.consumerFailed,
    h'.log.trans h.log⟩

theorem isIdle_create {transport : σ} {capacity : Nat} {c : Client κ σ} (h : create transport capacity = .ok c) :
    c.IsIdle := by
  rw [create] at h
  split at h
  · cases h
  · cases h
    exact ⟨rfl, rfl, rfl⟩

theorem IsIdle.subscribe {c : Client κ σ} (h : c.IsIdle) (t : Transport σ) (s : Subscription κ) :
    (c.subscribe t s).2.IsIdle := by
  obtain ⟨transport, mailbox, subscriptions, phase, failed, log⟩ := c
  obtain rfl : phase = .idle := h.phase
  exact ⟨rfl, h.closed, h.empty⟩

/-! ## Calls -/

/-- A client over a recorded transport after some more calls to it. -/
structure After (c : Client κ (Recorded σ)) (calls : Calls) (c' : Client κ (Recorded σ)) : Prop where
  same : SameSelf c c'
  calls : c'.transport.calls = c.transport.calls ++ calls

theorem After.trans {c c' c'' : Client κ (Recorded σ)} {calls calls' : Calls} (h : After c calls c')
    (h' : After c' calls' c'') : After c (calls ++ calls') c'' :=
  ⟨h.same.trans h'.same, by rw [h'.calls, h.calls, List.append_assoc]⟩

/-- The mailbox has no part in that. -/
theorem After.ofMailbox {c c' : Client κ (Recorded σ)} {m : Mailbox} {calls : Calls}
    (h : After { c with mailbox := m } calls c') : After c calls c' :=
  ⟨⟨h.same.subscriptions, h.same.phase, h.same.consumerFailed, h.same.log⟩, h.calls⟩

theorem After.withMailbox {c c' : Client κ (Recorded σ)} {calls : Calls} (h : After c calls c') (m : Mailbox) :
    After c calls { c' with mailbox := m } :=
  ⟨⟨h.same.subscriptions, h.same.phase, h.same.consumerFailed, h.same.log⟩, h.calls⟩

section

variable {t : Transport σ} {c c' : Client κ (Recorded σ)} {result : Except Fault Unit}

/-- A call is written down, and is over the transport itself the same call. -/
theorem call_noted {asked : Asked} {f : Call σ} (h : c.call (Recorded.noted asked f) = (result, c')) :
    After c [(asked, result.isOk)] c' ∧ c.unrecorded.call f = (result, c'.unrecorded) := by
  obtain rfl : (c.call (Recorded.noted asked f)).1 = result := congrArg Prod.fst h
  obtain rfl : (c.call (Recorded.noted asked f)).2 = c' := congrArg Prod.snd h
  exact ⟨⟨⟨rfl, rfl, rfl, rfl⟩, rfl⟩, rfl⟩

/-- What comes of subscribing to filters in turn: all are accepted, or one is
refused after some that were. -/
inductive Subscribes : List String → Except Fault Unit → Calls → Prop
  | all (filters : List String) :
      Subscribes filters (.ok ()) (filters.map fun filter => (.subscribe filter, true))
  | refused (done : List String) (filter : String) (rest : List String) (e : Fault) :
      Subscribes (done ++ filter :: rest) (.error e)
        ((done.map fun filter => (.subscribe filter, true)) ++ [(.subscribe filter, false)])

theorem Subscribes.cons {filters : List String} {calls : Calls} (h : Subscribes filters result calls)
    (filter : String) : Subscribes (filter :: filters) result ((.subscribe filter, true) :: calls) := by
  cases h with
  | all => exact .all (filter :: filters)
  | refused done refused rest e => exact .refused (filter :: done) refused rest e

theorem subscribeAll_noted {filters : List String}
    (h : subscribeAll (Recorded.transport t) c filters = (result, c')) :
    ∃ calls, Subscribes filters result calls ∧ After c calls c' ∧
      subscribeAll t c.unrecorded filters = (result, c'.unrecorded) := by
  induction filters generalizing c with
  | nil =>
    cases h
    exact ⟨_, .all [], ⟨.refl _, (List.append_nil _).symm⟩, rfl⟩
  | cons filter filters ih =>
    rw [subscribeAll] at h
    cases hcall : c.call ((Recorded.transport t).subscribe filter) with
    | mk first c₁ =>
      obtain ⟨hafter, hinner⟩ := call_noted hcall
      rw [hcall] at h
      cases first with
      | error e =>
        cases h
        exact ⟨_, .refused [] filter filters e, hafter, by rw [subscribeAll, hinner]⟩
      | ok =>
        obtain ⟨calls, hsubscribes, hrest, hinners⟩ := ih h
        exact ⟨_, hsubscribes.cons filter, hafter.trans hrest, by rw [subscribeAll, hinner]; exact hinners⟩

end

/-! ## Starts -/

/-- The client without its receiver, as a start that fails leaves it. -/
def givenUp (c : Client κ σ) : Client κ σ := { c with mailbox := c.mailbox.close }

/-- An idle client does not start for want of a runtime, because the transport
does not connect, or because it refuses a subscription. -/
theorem start_eq_error_iff {t : Transport σ} {runtime : Bool} {c c' : Client κ σ} {e : Fault}
    (hp : c.phase = .idle) :
    c.start t runtime = (.error e, c') ↔
      (runtime = false ∧ e = .noRuntime ∧ c' = c) ∨
      (runtime = true ∧ ∃ c₁, Client.call { c with mailbox := c.mailbox.reopen } t.connect = (.error e, c₁) ∧
        c' = c₁.givenUp) ∨
      (runtime = true ∧ ∃ c₁ c₂, Client.call { c with mailbox := c.mailbox.reopen } t.connect = (.ok (), c₁) ∧
        subscribeAll t c₁ (c₁.subscriptions.map (·.filter)) = (.error e, c₂) ∧ c' = c₂.givenUp) := by
  obtain ⟨transport, mailbox, subscriptions, phase, failed, log⟩ := c
  obtain rfl : phase = .idle := hp
  cases runtime with
  | false => simp [start, eq_comm]
  | true =>
    simp only [start, Bool.not_true, Bool.false_eq_true, if_false, true_and]
    cases Client.call ⟨transport, mailbox.reopen, subscriptions, .idle, failed, log⟩ t.connect with
    | mk first c₁ =>
      cases first with
      | error e₁ => simp [givenUp, eq_comm, and_assoc]
      | ok =>
        simp only [Prod.mk.injEq, reduceCtorEq, false_and, exists_false, false_or]
        cases hall : subscribeAll t c₁ (c₁.subscriptions.map (·.filter)) with
        | mk result c₂ => cases result <;> simp [givenUp, hall, eq_comm, and_assoc]

/-- How a start comes to fail, and what has been asked of the transport by
then: nothing, to connect in vain, or to connect and to subscribe to filters up
to one that is refused. -/
inductive Breaks (filters : List String) : Fault → Calls → Prop
  | noRuntime : Breaks filters .noRuntime []
  | connect (e : Fault) : Breaks filters e [(.connect, false)]
  | subscribe {e : Fault} {calls : Calls} (h : Subscribes filters (.error e) calls) :
      Breaks filters e ((.connect, true) :: calls)

/-- A transport is connected after a start that fails if it has been before, or
if this start has connected it. -/
theorem Breaks.attached_append {filters : List String} {e : Fault} {calls : Calls} (h : Breaks filters e calls)
    (before : Calls) :
    (before ++ calls).attached = (before.attached || calls.contains (.connect, true)) := by
  rw [Calls.attached, Calls.attachedFrom_append]
  cases h with
  | noRuntime => simp [Calls.attachedFrom, Calls.attached]
  | connect => simp [Calls.attachedFrom, Calls.attached]
  | subscribe h =>
    cases h with
    | refused done filter rest =>
      have hdone := Calls.attachedFrom_subscribes true done
      simp [Calls.attachedFrom, Calls.attachedFrom_append, hdone]

/-- What a start that fails leaves behind. -/
structure FailedStart (t : Transport σ) (runtime : Bool) (c c' : Client κ (Recorded σ)) (e : Fault) : Prop where
  /-- The client has not been started, and nobody receives. -/
  idle : c'.IsIdle
  same : SameSelf c c'
  dropped : t.Quiet → c'.dropped = c.dropped
  /-- The transport has been asked no more than this, and is left connected if
  this start has connected it. -/
  asked : ∃ calls, Breaks (c.subscriptions.map (·.filter)) e calls ∧
    c'.transport.calls = c.transport.calls ++ calls ∧
    c'.transport.calls.attached = (c.transport.calls.attached || calls.contains (.connect, true))
  /-- A stop then asks nothing of the transport. -/
  stopped : ∀ early, c'.stop (Recorded.transport t) early = (.ok (), { c' with phase := .stopped })
  /-- Over the transport itself it goes the same way. -/
  unrecorded : c.unrecorded.start t runtime = (.error e, c'.unrecorded)

theorem dropped_call {f : Call σ} (hf : ∀ s m, (f s m).2.2.dropped = m.dropped) (c : Client κ σ) :
    (c.call f).2.dropped = c.dropped := hf c.transport c.mailbox

theorem dropped_subscribeAll {t : Transport σ} (ht : t.Quiet) (c : Client κ σ) (filters : List String) :
    (subscribeAll t c filters).2.dropped = c.dropped := by
  induction filters generalizing c with
  | nil => rfl
  | cons filter filters ih =>
    have hcall := dropped_call (ht.subscribe filter) c
    rw [subscribeAll]
    split
    next c₁ hc => rw [ih c₁, ← hcall, hc]
    next e c₁ hc => rw [← hcall, hc]

theorem dropped_start {t : Transport σ} (ht : t.Quiet) {runtime : Bool} {c c' : Client κ σ} {e : Fault}
    (hp : c.phase = .idle) (h : c.start t runtime = (.error e, c')) : c'.dropped = c.dropped := by
  have hconnect := dropped_call ht.connect { c with mailbox := c.mailbox.reopen }
  rcases (start_eq_error_iff hp).1 h with ⟨-, -, rfl⟩ | ⟨-, c₁, hc, rfl⟩ | ⟨-, c₁, c₂, hc, hall, rfl⟩
  · rfl
  · rw [hc] at hconnect
    exact hconnect
  · have hsubscribes := dropped_subscribeAll ht c₁ (c₁.subscriptions.map (·.filter))
    rw [hall] at hsubscribes
    rw [hc] at hconnect
    exact hsubscribes.trans hconnect

theorem IsIdle.stop {c : Client κ σ} (h : c.IsIdle) (t : Transport σ) (early : Nat) :
    c.stop t early = (.ok (), { c with phase := .stopped }) := by
  obtain ⟨transport, mailbox, subscriptions, phase, failed, log⟩ := c
  obtain rfl : phase = .idle := h.phase
  rfl

variable {t : Transport σ} {runtime : Bool} {c c' : Client κ (Recorded σ)} {e : Fault}

theorem failedStart_of_breaks {calls : Calls} (hbreaks : Breaks (c.subscriptions.map (·.filter)) e calls)
    (hafter : After c calls c') (hidle : c.IsIdle) (hidle' : c'.IsIdle)
    (hinner : c.unrecorded.start t runtime = (.error e, c'.unrecorded)) : FailedStart t runtime c c' e where
  idle := hidle'
  same := hafter.same
  dropped := fun ht => dropped_start (c := c.unrecorded) ht hidle.phase hinner
  asked := ⟨calls, hbreaks, hafter.calls, by rw [hafter.calls, hbreaks.attached_append]⟩
  stopped := hidle'.stop _
  unrecorded := hinner

theorem After.isIdle_givenUp {calls : Calls} (h : After c calls c') (hidle : c.IsIdle) : c'.givenUp.IsIdle :=
  ⟨h.same.phase.trans hidle.phase, rfl, rfl⟩

/-- **A start that fails leaves the client as it was**, over any transport and
with any subscriptions. The transport is as it was too, but for the calls that
it has accepted; so it stays connected if it was a subscription that it refused. -/
theorem failedStart_of_error (hidle : c.IsIdle)
    (h : c.start (Recorded.transport t) runtime = (.error e, c')) : FailedStart t runtime c c' e := by
  have hp : c.unrecorded.phase = .idle := hidle.phase
  rcases (start_eq_error_iff hidle.phase).1 h with
    ⟨hruntime, rfl, rfl⟩ | ⟨hruntime, c₁, hconnect, rfl⟩ | ⟨hruntime, c₁, c₂, hconnect, hall, rfl⟩
  · exact failedStart_of_breaks .noRuntime ⟨.refl _, (List.append_nil _).symm⟩ hidle hidle
      ((start_eq_error_iff hp).2 (.inl ⟨hruntime, rfl, rfl⟩))
  · obtain ⟨hafter, hinner⟩ := call_noted hconnect
    exact failedStart_of_breaks (.connect e) (hafter.ofMailbox.withMailbox _) hidle
      (hafter.ofMailbox.isIdle_givenUp hidle)
      ((start_eq_error_iff hp).2 (.inr (.inl ⟨hruntime, c₁.unrecorded, hinner, rfl⟩)))
  · obtain ⟨hafter, hinner⟩ := call_noted hconnect
    obtain ⟨calls, hsubscribes, hsubscribed, hinners⟩ := subscribeAll_noted hall
    rw [hafter.same.subscriptions] at hsubscribes
    have hafter := hafter.ofMailbox.trans hsubscribed
    exact failedStart_of_breaks (.subscribe hsubscribes) (hafter.withMailbox _) hidle (hafter.isIdle_givenUp hidle)
      ((start_eq_error_iff hp).2 (.inr (.inr ⟨hruntime, c₁.unrecorded, c₂.unrecorded, hinner, hinners, rfl⟩)))

/-- A client with a handler for each of some filters. -/
def withFilters (transport : σ) (filters : List String) : Client String σ :=
  { transport, mailbox := .closed 1, phase := .idle, consumerFailed := false, log := []
    subscriptions := filters.map fun filter => { filter, handler := filter, fails := fun _ => false } }

/-- The loopback transport without a filter that it refuses. -/
def lacking (refused : String) : Transport Loopback :=
  { Loopback.transport with
    subscribe := fun filter s m =>
      if filter = refused then (.error (.refused "no such topic"), s, m) else Loopback.subscribe filter s m }

/-- Of three filters the second is refused: the third is not asked for, and the transport is connected. -/
theorem failedStart_lacking :
    (withFilters (Recorded.mk Loopback.idle []) ["a", "b", "c"]).IsIdle ∧
      ∃ c', (withFilters (Recorded.mk Loopback.idle []) ["a", "b", "c"]).start (Recorded.transport (lacking "b")) true =
          (.error (.refused "no such topic"), c') ∧
        FailedStart (lacking "b") true (withFilters (Recorded.mk Loopback.idle []) ["a", "b", "c"]) c'
          (.refused "no such topic") ∧
        c'.transport.calls = [(.connect, true), (.subscribe "a", true), (.subscribe "b", false)] :=
  ⟨⟨rfl, rfl, rfl⟩, _, rfl, failedStart_of_error ⟨rfl, rfl, rfl⟩ rfl, rfl⟩

/-- A start is not undone: the one subscription is refused, the client is idle
and then stopped, and the transport is connected all the same. -/
theorem attached_of_refused :
    ∃ (c c' : Client String (Recorded (Refusing Loopback))) (e : Fault),
      c.IsIdle ∧ c.transport.calls.attached = false ∧ c.transport.inner.inner.connected = false ∧
        c.start (Recorded.transport (Refusing.transport Loopback.transport)) true = (.error e, c') ∧ c'.IsIdle ∧
        c'.transport.calls.attached = true ∧ c'.transport.inner.inner.connected = true ∧
        (c'.stop (Recorded.transport (Refusing.transport Loopback.transport)) 0).2.transport.calls.attached = true ∧
        (c'.stop (Recorded.transport (Refusing.transport Loopback.transport)) 0).2.transport.inner.inner.connected =
          true :=
  ⟨withFilters ⟨(Refusing.start Loopback.idle).refuse .subscribe "no", []⟩ ["a"], _, .refused "no",
    ⟨rfl, rfl, rfl⟩, rfl, rfl, rfl, ⟨rfl, rfl, rfl⟩, rfl, rfl, rfl, rfl⟩

end Client

end FlowScript.Channel
