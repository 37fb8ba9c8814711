/-
A client over the loopback transport: what its calls do to it. The transport
keeps each filter once, in the order of the subscriptions, so a message that
it hands in is queued exactly if some subscription is for it and the mailbox
has room.
-/
import FlowScript.Channel.Session

namespace FlowScript.Channel

variable {κ : Type}

/-! ## Filters -/

/-- A list with one more item, unless it has it. -/
def addOnce (filters : List String) (filter : String) : List String :=
  if filters.contains filter then filters else filters ++ [filter]

theorem eraseDups_concat (filters : List String) (filter : String) :
    (filters ++ [filter]).eraseDups = addOnce filters.eraseDups filter := by
  have hone : [filter].eraseDups = [filter] := by simp [List.eraseDups_cons]
  rw [List.eraseDups_append, addOnce]
  by_cases h : filter ∈ filters
  · simp [List.removeAll, h, List.mem_eraseDups]
  · simp [List.removeAll, h, List.mem_eraseDups, hone]

theorem foldl_addOnce (first filters : List String) :
    filters.foldl addOnce first.eraseDups = (first ++ filters).eraseDups := by
  induction filters generalizing first with
  | nil => rw [List.foldl_nil, List.append_nil]
  | cons filter filters ih =>
    rw [List.foldl_cons, ← eraseDups_concat, ih, List.append_assoc, List.singleton_append]

namespace Client

/-- Whether some subscription of the client is for a topic. -/
def wants (c : Client κ Loopback) (topic : String) : Bool :=
  c.subscriptions.any fun s => filterMatches s.filter topic

theorem wants_iff {c : Client κ Loopback} {topic : String} :
    c.wants topic = true ↔ ∃ s ∈ c.subscriptions, filterMatches s.filter topic = true := by
  simp [wants]

theorem handlersFor_ne_nil {c : Client κ Loopback} {message : Message}
    (h : c.wants message.topic = true) : handlersFor c.subscriptions message ≠ [] := by
  obtain ⟨s, hs, hm⟩ := wants_iff.1 h
  exact List.ne_nil_of_mem (List.mem_filter.2 ⟨hs, hm⟩)

/-! ## Calls over the loopback transport -/

theorem subscribe_loopback (c : Client κ Loopback) (filter : String) :
    c.call (Loopback.transport.subscribe filter) = (.ok (), { c with transport :=
      { c.transport with filters := addOnce c.transport.filters filter } }) := by
  simp only [call, Loopback.transport, Loopback.subscribe, addOnce]
  split <;> rfl

theorem subscribeAll_loopback (c : Client κ Loopback) (filters : List String) :
    c.subscribeAll Loopback.transport filters = (.ok (), { c with transport :=
      { c.transport with filters := filters.foldl addOnce c.transport.filters } }) := by
  induction filters generalizing c with
  | nil => rfl
  | cons filter filters ih =>
    rw [subscribeAll, subscribe_loopback]
    exact ih _

theorem publish_connected {s : Loopback} (hc : s.connected = true) (m : Mailbox) (message : Message) :
    (Loopback.publish message s m).2 =
      ({ s with published := s.published ++ [message] }, (s.inject m message).2) := by
  obtain ⟨connected, filters, published⟩ := s
  have hinject : Loopback.inject ⟨connected, filters, published ++ [message]⟩ m message =
      Loopback.inject ⟨connected, filters, published⟩ m message := rfl
  cases hc
  simp only [Loopback.publish, hinject, Bool.not_true, Bool.false_eq_true, if_false]
  generalize Loopback.inject ⟨true, filters, published⟩ m message = result
  obtain ⟨fault | _, mailbox⟩ := result
  · cases fault <;> rfl
  · rfl

theorem publish_loopback {c : Client κ Loopback} (hr : c.phase = .running)
    (hc : c.transport.connected = true) (message : Message) :
    (c.publish Loopback.transport message).2 = { (c.inject message).2 with transport :=
      { c.transport with published := c.transport.published ++ [message] } } := by
  have h := publish_connected hc c.mailbox message
  simp only [publish, hr, call, inject, Loopback.transport, h]

/-- The client after a message has come in that only its subscriptions are
asked about: one that none of them is for is passed over. -/
def receive (c : Client κ Loopback) (message : Message) : Client κ Loopback :=
  if c.wants message.topic then { c with mailbox := (c.mailbox.deliver message).2 } else c

section

variable (c : Client κ Loopback) (message : Message)

@[simp] theorem receive_transport : (c.receive message).transport = c.transport := by
  unfold receive; split <;> rfl

@[simp] theorem receive_subscriptions : (c.receive message).subscriptions = c.subscriptions := by
  unfold receive; split <;> rfl

@[simp] theorem receive_phase : (c.receive message).phase = c.phase := by
  unfold receive; split <;> rfl

@[simp] theorem receive_consumerFailed : (c.receive message).consumerFailed = c.consumerFailed := by
  unfold receive; split <;> rfl

@[simp] theorem receive_log : (c.receive message).log = c.log := by
  unfold receive; split <;> rfl

@[simp] theorem receive_isOpen : (c.receive message).mailbox.isOpen = c.mailbox.isOpen := by
  unfold receive; split <;> simp

@[simp] theorem receive_capacity : (c.receive message).mailbox.capacity = c.mailbox.capacity := by
  unfold receive; split <;> simp

theorem receive_of_closed (h : c.mailbox.isOpen = false) : c.receive message = c := by
  simp [receive, Mailbox.deliver_of_closed h]

theorem receive_queue : (c.receive message).mailbox.queue =
    if c.wants message.topic && c.mailbox.hasRoom then c.mailbox.queue ++ [message]
    else c.mailbox.queue := by
  unfold receive
  cases hw : c.wants message.topic <;> simp [Mailbox.queue_deliver]

theorem receive_dropped : (c.receive message).mailbox.dropped =
    if c.wants message.topic && (c.mailbox.isOpen && decide (c.mailbox.capacity ≤ c.mailbox.queue.length))
    then c.mailbox.dropped + 1 else c.mailbox.dropped := by
  unfold receive
  cases hw : c.wants message.topic <;> simp [Mailbox.dropped_deliver]

end

theorem wants_loopback {c : Client κ Loopback}
    (hf : c.transport.filters = (c.subscriptions.map (·.filter)).eraseDups) (topic : String) :
    c.transport.wants topic = c.wants topic := by
  rw [Bool.eq_iff_iff, wants_iff, Loopback.wants, hf, List.any_eq_true]
  constructor
  · rintro ⟨filter, hmem, hm⟩
    obtain ⟨s, hs, rfl⟩ := List.mem_map.1 (List.mem_eraseDups.1 hmem)
    exact ⟨s, hs, hm⟩
  · rintro ⟨s, hs, hm⟩
    exact ⟨s.filter, List.mem_eraseDups.2 (List.mem_map_of_mem hs), hm⟩

theorem inject_loopback {c : Client κ Loopback} (hc : c.transport.connected = true)
    (hf : c.transport.filters = (c.subscriptions.map (·.filter)).eraseDups) (message : Message) :
    (c.inject message).2 = c.receive message := by
  simp only [inject, Loopback.inject, hc, Bool.not_true, Bool.false_eq_true, if_false, wants_loopback hf,
    receive]
  split <;> rfl

theorem callHandlers_of_return {message : Message} {handlers : List (Subscription κ)}
    (h : ∀ s ∈ handlers, s.fails message = false) :
    callHandlers message handlers = (handlers.map (·.handler), false) := by
  induction handlers with
  | nil => rfl
  | cons s rest ih =>
    rw [callHandlers, h s List.mem_cons_self, ih fun s hs => h s (List.mem_cons_of_mem _ hs)]
    rfl

theorem callHandlers_of_fail {message : Message} {handlers : List (Subscription κ)}
    (h : ∃ s ∈ handlers, s.fails message = true) : (callHandlers message handlers).2 = true := by
  induction handlers with
  | nil => obtain ⟨_, hs, _⟩ := h; cases hs
  | cons s rest ih =>
    rw [callHandlers]
    by_cases hs : s.fails message = true
    · rw [if_pos hs]
    · obtain ⟨s', hmem, hfail⟩ := h
      rcases List.mem_cons.1 hmem with rfl | hmem
      · exact absurd hfail hs
      · rw [if_neg hs]
        exact ih ⟨s', hmem, hfail⟩

theorem no_handler_fails {subscriptions : List (Subscription κ)}
    (h : ∀ s ∈ subscriptions, ∀ message, s.fails message = false) (message : Message) :
    ¬∃ s ∈ handlersFor subscriptions message, s.fails message = true := by
  rintro ⟨s, hs, hfail⟩
  rw [h s (List.mem_filter.1 hs).1 message] at hfail
  cases hfail

end Client

end FlowScript.Channel
