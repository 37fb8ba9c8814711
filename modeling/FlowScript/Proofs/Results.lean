/-
Computations that can fail: when a chain of them succeeds and when it fails,
and what becomes of a list when one is made for each of its items.
-/
namespace FlowScript

variable {ε α β : Type}

theorem bind_eq_ok_iff {x : Except ε α} {f : α → Except ε β} {b : β} :
    x >>= f = .ok b ↔ ∃ a, x = .ok a ∧ f a = .ok b := by
  cases x <;> simp [bind, Except.bind]

theorem bind_eq_error_iff {x : Except ε α} {f : α → Except ε β} {e : ε} :
    x >>= f = .error e ↔ x = .error e ∨ ∃ a, x = .ok a ∧ f a = .error e := by
  cases x <;> simp [bind, Except.bind]

theorem exists_ok_iff {x : Except ε α} : (∃ a, x = .ok a) ↔ ∀ e, x ≠ .error e := by
  cases x <;> simp

theorem eq_ok_of_toOption {x : Except ε α} {a : α} (h : x.toOption = some a) : x = .ok a := by
  cases x with
  | error e => cases h
  | ok b => exact congrArg Except.ok (Option.some.inj h)

/-! ## Lists -/

theorem mapM_eq_ok {f : α → Except ε β} {g : α → β} {xs : List α} (h : ∀ x ∈ xs, f x = .ok (g x)) :
    xs.mapM f = .ok (xs.map g) := by
  induction xs with
  | nil => rfl
  | cons x xs ih =>
    obtain ⟨hx, hxs⟩ := List.forall_mem_cons.1 h
    simp [hx, ih hxs, bind, Except.bind, pure, Except.pure]

/-- The first failure is the one that is reported. -/
theorem mapM_append_eq_error {f : α → Except ε β} {before after : List α} {ys : List β} {e : ε}
    (hbefore : before.mapM f = .ok ys) (hafter : after.mapM f = .error e) :
    (before ++ after).mapM f = .error e := by
  simp [List.mapM_append, hbefore, hafter, bind, Except.bind]

end FlowScript
