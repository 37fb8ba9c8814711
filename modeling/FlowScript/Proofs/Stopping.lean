/-
How a call to stop ends. Until it has ended, the task that is waited for can
take some turn (`Sound.exists_ready`), and each turn brings it nearer to its
end (`Effect.turnsLeft_lt`). Which turns it takes makes no difference to what
it leaves behind: all that is queued is taken, up to a message at which a
handler fails (`Client.finish`). So the call returns what `Client.stop` does,
with the client as that leaves it (`stop_returns`).
-/
import FlowScript.Proofs.Runs

namespace FlowScript.Channel

/-! ## What a consumer leaves behind -/

namespace Client

variable {κ σ : Type}

/-- The client when its consumer has taken what is queued and returned. -/
def finish (c : Client κ σ) : Client κ σ := { c.drain with mailbox := c.drain.mailbox.close }

theorem consumeMany_of_nil {c : Client κ σ} (h : c.mailbox.queue = []) (n : Nat) : consumeMany n c = c := by
  have hone : c.consume = c := by rw [consume, h]
  induction n with
  | zero => rfl
  | succ n ih => rw [consumeMany, hone, ih]

/-- Taking a message leaves the others, or none if a handler fails. -/
theorem queue_consume {c : Client κ σ} {message : Message} {rest : List Message}
    (h : c.mailbox.queue = message :: rest) :
    c.consume.mailbox.queue = rest ∨ c.consume.mailbox.queue = [] := by
  rw [consume, h]
  dsimp only
  split
  · exact .inr rfl
  · exact .inl rfl

theorem drain_consume (c : Client κ σ) : c.consume.drain = c.drain := by
  cases hqueue : c.mailbox.queue with
  | nil => rw [consume, hqueue]
  | cons message rest =>
    have hdrain : c.drain = consumeMany rest.length c.consume := by
      rw [drain, hqueue, List.length_cons, consumeMany]
    rw [hdrain, drain]
    rcases queue_consume hqueue with h | h
    · rw [h]
    · rw [consumeMany_of_nil h, consumeMany_of_nil h]

theorem finish_consume (c : Client κ σ) : c.consume.finish = c.finish := by
  rw [finish, drain_consume, finish]

theorem finish_consumeMany (n : Nat) (c : Client κ σ) : (consumeMany n c).finish = c.finish := by
  induction n generalizing c with
  | zero => rfl
  | succ n ih => rw [consumeMany, ih, finish_consume]

/-- The client when nobody can send to its mailbox any more. -/
def shut (c : Client κ σ) : Client κ σ := { c with mailbox := { c.mailbox with isOpen := false } }

theorem consume_shut (c : Client κ σ) : c.shut.consume = c.consume.shut := by
  cases hqueue : c.mailbox.queue with
  | nil => simp only [consume, shut, hqueue]
  | cons message rest =>
    simp only [consume, shut, hqueue]
    split <;> rfl

theorem consumeMany_shut (n : Nat) (c : Client κ σ) : consumeMany n c.shut = (consumeMany n c).shut := by
  induction n generalizing c with
  | zero => rfl
  | succ n ih => rw [consumeMany, consumeMany, consume_shut, ih]

theorem finish_shut (c : Client κ σ) : c.shut.finish = c.finish := by
  have hdrain : c.shut.drain = c.drain.shut := consumeMany_shut _ c
  rw [finish, hdrain]
  rfl

/-- A consumer that has nothing left to take has finished when its mailbox is closed. -/
theorem finish_of_nil {c : Client κ σ} (h : c.mailbox.queue = []) :
    c.finish = { c with mailbox := c.mailbox.close } := by
  have hdrain : c.drain = c := consumeMany_of_nil h _
  rw [finish, hdrain]

theorem finish_of_closed {c : Client κ σ} (h : c.mailbox.close = c.mailbox) : c.finish = c := by
  have hqueue : c.mailbox.queue = [] := by
    rw [← h]
    rfl
  rw [finish_of_nil hqueue, h]

/-- However many messages the consumer takes early, a running client is stopped in one way. -/
theorem stop_of_running {c : Client κ σ} (hp : c.phase = .running) (t : Transport σ) (early : Nat) :
    c.stop t early =
      (if (c.disconnect t).2.finish.consumerFailed then .error .consumerFailed else (c.disconnect t).1,
        (c.disconnect t).2.finish) := by
  rw [← finish_consumeMany early, stop, hp]
  rfl

end Client

namespace Session

variable {κ : Type} {capacity : Nat} {σ σ' : Session κ}

/-! ## Progress -/

/-- How many turns a task can take at most if nothing else happens. -/
def turnsLeft (σ : Session κ) : Nat :=
  match σ.task with
  | .absent | .ended => 0
  | .waiting => σ.client.mailbox.queue.length + 2
  | .draining => σ.client.mailbox.queue.length + 1

theorem turnsLeft_le (σ : Session κ) : σ.turnsLeft ≤ σ.client.mailbox.queue.length + 2 := by
  unfold turnsLeft
  split <;> omega

theorem Effect.turnsLeft_lt {t : Turn} (h : Effect σ (.turn t) σ') : σ'.turnsLeft < σ.turnsLeft := by
  cases h with
  | handled htask hqueue _ => rcases htask with htask | htask <;> simp [turnsLeft, htask, hqueue]
  | failed htask _ _ => rcases htask with htask | htask <;> simp [turnsLeft, htask]
  | finished _ _ htask _ => rcases htask with htask | htask <;> simp [turnsLeft, endTask, htask]
  | shutDown htask _ => simp [turnsLeft, htask]

theorem Sound.exists_ready (hσ : Sound capacity σ) (hstop : σ.stopping.isSome = true)
    (htask : σ.task ≠ .ended) : ∃ t, σ.ready t = true := by
  cases ht : σ.task with
  | absent => exact absurd ht (hσ.stage.of_stopping hstop).2.2
  | ended => exact absurd ht htask
  | waiting => exact ⟨.shutdown, by simp [ready, ht, hstop]⟩
  | draining =>
    cases hqueue : σ.client.mailbox.queue with
    | nil => exact ⟨.drained, by simp [ready, ht, hqueue]⟩
    | cons message rest => exact ⟨.message, by simp [ready, ht, hqueue]⟩

/-! ## Confluence -/

theorem finish_take {t : Turn} (h : σ.ready t = true) : (σ.take t).client.finish = σ.client.finish := by
  have hend (hqueue : σ.client.mailbox.queue = []) : σ.endTask.client.finish = σ.client.finish := by
    rw [Client.finish_of_nil hqueue]
    exact Client.finish_of_nil rfl
  cases t with
  | message => exact Client.finish_consume σ.client
  | channelEnd | drained =>
    simp only [ready, Bool.and_eq_true, List.isEmpty_iff] at h
    exact hend h.2
  | shutdown => exact Client.finish_shut σ.client

theorem stopping_take (σ : Session κ) (t : Turn) : (σ.take t).stopping = σ.stopping := by
  cases t <;> rfl

/-- What turns of the task lead to. -/
theorem play_turns {turns : List Turn} {moments : List (Moment κ)} (hσ : Sound capacity σ)
    (h : σ.play (turns.map .turn) = some (moments, σ')) :
    Sound capacity σ' ∧ σ'.client.finish = σ.client.finish ∧ σ'.stopping = σ.stopping ∧
      turns.length + σ'.turnsLeft ≤ σ.turnsLeft := by
  induction turns generalizing σ moments with
  | nil =>
    cases h
    exact ⟨hσ, rfl, rfl, Nat.le_of_eq (Nat.zero_add _)⟩
  | cons t turns ih =>
    simp only [List.map_cons, play, Option.bind_eq_bind, Option.bind_eq_some_iff] at h
    obtain ⟨τ, hstep, ⟨rest, _⟩, hrest, h⟩ := h
    cases h
    have heffect := effect_of_step hσ hstep
    obtain ⟨hready, rfl⟩ := step_turn_eq_some_iff.1 hstep
    obtain ⟨hsound, hfinish, hstopping, hleft⟩ := ih (hσ.next heffect) hrest
    have hlt := heffect.turnsLeft_lt
    refine ⟨hsound, hfinish.trans (finish_take hready), hstopping.trans (stopping_take σ t), ?_⟩
    rw [List.length_cons]
    omega

/-- A call to stop that waits can return. -/
theorem Sound.exists_return (hσ : Sound capacity σ) (hstop : σ.stopping.isSome = true) :
    ∃ turns : List Turn, (σ.play (turns.map .turn ++ [.joined])).isSome = true := by
  -- Any turn that is ready will do, since each leaves fewer.
  induction hn : σ.turnsLeft using Nat.strongRecOn generalizing σ with
  | ind n ih =>
    subst hn
    by_cases htask : σ.task = .ended
    · exact ⟨[], by simp [play, step, htask, hstop]⟩
    · obtain ⟨t, ht⟩ := hσ.exists_ready hstop htask
      have heffect := effect_take hσ ht
      obtain ⟨turns, hplay⟩ :=
        ih _ heffect.turnsLeft_lt (hσ.next heffect) (by rwa [stopping_take]) rfl
      obtain ⟨r, hr⟩ := Option.isSome_iff_exists.1 hplay
      have hstep := step_turn_eq_some_iff.2 ⟨ht, rfl⟩
      exact ⟨t :: turns, by simp [play, hstep, hr]⟩

end Session

/-- A call to stop a running client returns, whatever turns the consumer
takes: it can take only so many, it can always go on until the call returns,
and that returns what `Client.stop` does, however early the consumer is there
taken to notice, and leaves the same client. -/
theorem stop_returns {κ : Type} {capacity : Nat} {past moments : List (Moment κ)} {σ τ : Session κ}
    (run : Run capacity past σ) (hp : σ.client.phase = .running) {turns : List Turn}
    (h : (σ.serve .stop).play (turns.map .turn) = some (moments, τ)) :
    turns.length ≤ σ.client.mailbox.queue.length + 2 ∧
    (∃ more : List Turn, (τ.play (more.map .turn ++ [.joined])).isSome = true) ∧
    ∀ τ', τ.step .joined = some τ' → ∀ early,
      τ.stopResult? .joined = some (σ.client.stop Loopback.transport early).1 ∧
      τ'.client = (σ.client.stop Loopback.transport early).2 := by
  have hserve : σ.serve .stop = { σ with
      client := (σ.client.disconnect Loopback.transport).2
      stopping := some (σ.client.disconnect Loopback.transport).1 } := by
    rw [Session.serve, hp]
  have hsound : Session.Sound capacity (σ.serve .stop) := run.sound.next Session.effect_stop
  obtain ⟨hτ, hfinish, hstopping, hleft⟩ := Session.play_turns hsound h
  rw [hserve] at hfinish hstopping
  refine ⟨?_, ?_, ?_⟩
  · have hle := (σ.serve .stop).turnsLeft_le
    have hqueue : (σ.serve .stop).client.mailbox.queue = σ.client.mailbox.queue := by
      rw [hserve]
      rfl
    rw [hqueue] at hle
    omega
  · exact hτ.exists_return (by rw [hstopping]; rfl)
  · intro τ' hstep early
    obtain ⟨-, htask, rfl⟩ := Session.step_joined_eq_some_iff.1 hstep
    rw [Client.finish_of_closed (hτ.quiet (.inr htask))] at hfinish
    rw [Client.stop_of_running hp, ← hfinish, Session.stopResult?, hstopping]
    constructor
    · split <;> rfl
    · rfl

end FlowScript.Channel
