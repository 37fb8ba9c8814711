/-
What the values of components call. A string literal is read as its first
quote, and numbers, words and lists have no parentheses; so a value calls
nothing (`NoCall`), except that in Python a wait without an end is written as
a call of its own (`calledNamesOf_waitLiteral`).
-/
import FlowScript.Proofs.Calls

namespace FlowScript

open Component
open Code

variable {target : Target}

/-- No parenthesis opens in the code of a text. -/
def NoCall (target : Target) (cs : List Char) : Prop := '(' ∉ code target .code cs

theorem NoCall.calledNamesOf_eq_nil {cs : List Char} (h : NoCall target cs) :
    calledNamesOf .text (code target .code cs) = [] := FlowScript.calledNamesOf_eq_nil h

/-! ## Literals -/

theorem NoCall.of_not_mem {cs : List Char} (h : '(' ∉ cs) : NoCall target cs := fun hm => h (mem_of_mem_code hm)

theorem quote_ne : target.style.quote ≠ '(' := by cases target <;> decide

theorem noCall_textLiteral (s : String) : NoCall target (target.textLiteral s).toList := by
  have hself : code target .code (target.style.quoted s) = [target.style.quote] := by
    simpa using @code_quoted target s [] (by simp [NoQuote])
  rw [NoCall, Target.textLiteral, String.toList_ofList, hself, List.mem_singleton]
  exact quote_ne.symm

theorem IsNumeral.not_mem {cs : List Char} (h : IsNumeral cs) : '(' ∉ cs := by
  intro hm
  have hnumeric := h.numeric _ hm
  revert hnumeric
  decide

theorem not_mem_numberLiteral (x : Binary64) : '(' ∉ (target.numberLiteral x).toList := by
  have ht := isNumeral_text x
  unfold Target.numberLiteral
  generalize Target.numberLayout.text x = cs at ht
  cases target with
  | desktop => rw [String.toList_ofList]; exact ht.not_mem
  | browser => rw [String.toList_ofList]; exact (isNumeral_dropPoint ht).not_mem

theorem noCall_numberLiteral (x : Binary64) : NoCall target (target.numberLiteral x).toList :=
  .of_not_mem (not_mem_numberLiteral x)

theorem noCall_toString (n : Nat) : NoCall target (toString n).toList := by
  rw [Nat.toString_eq_ofList_toDigits, String.toList_ofList]
  exact .of_not_mem (isNumeral_digits n).not_mem

theorem noCall_boolLiteral (b : Bool) : NoCall target (target.boolLiteral b).toList := by
  cases target <;> cases b <;> exact .of_not_mem (by decide)

theorem noCall_noneLiteral : NoCall target target.noneLiteral.toList := by
  cases target <;> exact .of_not_mem (by decide)

theorem noCall_writeItems {keys : List String} (hne : keys ≠ []) :
    NoCall target (target.style.writeItems Json.Number.token (keys.map .str) ++ [']']) := by
  induction keys with
  | nil => exact absurd rfl hne
  | cons key keys ih =>
    cases keys with
    | nil =>
      have hend : NoQuote target [']'] := by
        intro c hc
        cases hc
        cases target <;> decide
      change '(' ∉ code target .code (target.style.quoted key ++ [']'])
      rw [code_quoted key hend]
      cases target <;> decide
    | cons other keys =>
      have hcomma : target.style.comma.all (isPlain target) = true := by cases target <;> decide
      have hrest := ih (List.cons_ne_nil _ _)
      change '(' ∉ code target .code ((target.style.quoted key ++ (target.style.comma ++
        target.style.writeItems Json.Number.token ((other :: keys).map .str))) ++ [']'])
      rw [List.append_assoc, List.append_assoc, code_quoted key (noQuote_comma _),
        code_plain_append hcomma, List.mem_cons, List.mem_append]
      rintro (h | h | h)
      · exact quote_ne h.symm
      · revert h
        cases target <;> decide
      · exact hrest h

theorem noCall_keysLiteral (keys : List String) : NoCall target (keysLiteral target keys).toList := by
  rw [keysLiteral]
  split
  next => exact noCall_noneLiteral
  next h =>
    have hne : keys ≠ [] := fun e => h (List.isEmpty_iff.2 e)
    rw [Target.literal, String.toList_ofList]
    change '(' ∉ code target .code ('[' ::
      (target.style.writeItems Json.Number.token (keys.map .str) ++ [']']))
    rw [code_plain_cons (by cases target <;> decide), List.mem_cons]
    rintro (h | h)
    · cases h
    · exact noCall_writeItems hne h

theorem noCall_sizeLiteral {size : Option Json} {code : String} (h : sizeLiteral target size = .ok code) :
    NoCall target code.toList := by
  cases size with
  | none =>
    cases h
    exact noCall_noneLiteral
  | some t =>
    simp only [sizeLiteral, bind_eq_ok_iff] at h
    obtain ⟨⟨width, height⟩, -, h⟩ := h
    cases h
    have hmarks : '(' ∉ "[".toList ∧ '(' ∉ ", ".toList ∧ '(' ∉ "]".toList := by decide
    refine .of_not_mem ?_
    simp only [String.toList_append, List.mem_append, not_or]
    exact ⟨⟨⟨⟨hmarks.1, not_mem_numberLiteral width⟩, hmarks.2.1⟩, not_mem_numberLiteral height⟩,
      hmarks.2.2⟩

/-- In Python a wait without an end is a call. -/
theorem calledNamesOf_waitLiteral (duration : Binary64) :
    calledNamesOf .text (code target .code (waitLiteral target duration).toList) =
      if target = .desktop ∧ duration.isPositive = false then ["float".toList] else [] := by
  rw [waitLiteral]
  cases hp : duration.isPositive with
  | true =>
    rw [if_pos rfl, if_neg (by simp)]
    exact (noCall_numberLiteral duration).calledNamesOf_eq_nil
  | false =>
    rw [if_neg Bool.false_ne_true]
    cases target <;> decide

/-! ## Built-in kinds -/

/-- A context whose expressions call nothing, except for how long to wait,
which is what some properties say of it. -/
structure WaitsOnly (target : Target) (p : Properties) (context : Template.Context) : Prop where
  noCall : ∀ key value, context.get? key = some value → Role.ofKey key = .expression →
    key ≠ "max_wait" → NoCall target value.toList
  wait : ∀ value, context.get? "max_wait" = some value →
    ∃ duration, p.nonNegativeOr "duration" .zero = .ok duration ∧ value = waitLiteral target duration

theorem WaitsOnly.mem_calledNamesOf_wait {p : Properties} {context : Template.Context}
    (h : WaitsOnly target p context) (hbound : (context.get? "max_wait").isSome = true) {name : List Char} :
    name ∈ calledNamesOf .text (code target .code (context.values "max_wait")) ↔
      target = .desktop ∧ name = "float".toList ∧
        ∃ duration, p.nonNegativeOr "duration" .zero = .ok duration ∧ duration.isPositive = false := by
  obtain ⟨value, hvalue⟩ := Option.isSome_iff_exists.1 hbound
  obtain ⟨duration, hduration, rfl⟩ := h.wait value hvalue
  rw [Template.Context.values_of_get? hvalue, calledNamesOf_waitLiteral]
  constructor
  · intro hname
    split at hname
    next hforever => exact ⟨hforever.1, List.mem_singleton.1 hname, duration, hduration, hforever.2⟩
    next => cases hname
  · rintro ⟨rfl, rfl, other, hother, hforever⟩
    obtain rfl : duration = other := Except.ok.inj (hduration.symm.trans hother)
    rw [if_pos ⟨rfl, hforever⟩]
    exact List.mem_singleton.2 rfl

theorem mem_baseContext {node : Node.Resolved} {key value : String}
    (h : (baseContext target node).get? key = some value) (hkey : Role.ofKey key = .expression) :
    key = "name" ∧ value = target.textLiteral node.label := by
  have hm := get?_ofList h
  simp only [List.mem_cons, Prod.mk.injEq, List.not_mem_nil, or_false] at hm
  rcases hm with ⟨rfl, -⟩ | hm | ⟨rfl, -⟩ | ⟨rfl, -⟩ | ⟨rfl, -⟩
  · cases hkey
  · exact hm
  · cases hkey
  · cases hkey
  · cases hkey

theorem waitsOnly_insertAll {p : Properties} {node : Node.Resolved} {pairs : List (String × String)}
    (hcall : ∀ q ∈ pairs, q.1 ≠ "max_wait" → NoCall target q.2.toList)
    (hwait : ∀ q ∈ pairs, q.1 = "max_wait" → ∃ duration,
      p.nonNegativeOr "duration" .zero = .ok duration ∧ q.2 = waitLiteral target duration) :
    WaitsOnly target p ((baseContext target node).insertAll pairs) := by
  constructor
  · intro key value h hrole hkey
    rcases get?_insertAll h with h | h
    · rw [(mem_baseContext h hrole).2]
      exact noCall_textLiteral node.label
    · exact hcall _ h hkey
  · intro value h
    rcases get?_insertAll h with h | h
    · exact absurd (mem_baseContext h rfl).1 (by decide)
    · exact hwait _ h rfl

/-- The values that a kind finds call nothing, except for a wait. -/
def FindsWaits (values : Filling) : Prop :=
  ∀ node p target context, values node p target = .ok context → WaitsOnly target p context

theorem findsWaits_textValues : FindsWaits textValues := by
  intro node p target context h
  simp only [textValues, bind_eq_ok_iff] at h
  obtain ⟨text, -, duration, -, x, -, y, -, height, -, -, -, color, -, h⟩ := h
  rw [← Except.ok.inj h]
  refine waitsOnly_insertAll ?_ ?_
  · simp only [List.forall_mem_cons]
    exact ⟨fun _ => noCall_textLiteral text, fun _ => noCall_numberLiteral duration,
      fun _ => noCall_numberLiteral x, fun _ => noCall_numberLiteral y,
      fun _ => noCall_numberLiteral height, fun _ => noCall_textLiteral color, List.forall_mem_nil _⟩
  · simp

theorem findsWaits_imageValues : FindsWaits imageValues := by
  intro node p target context h
  simp only [imageValues, bind_eq_ok_iff] at h
  obtain ⟨image, -, duration, -, x, -, y, -, size, hsize, h⟩ := h
  rw [← Except.ok.inj h]
  refine waitsOnly_insertAll ?_ ?_
  · simp only [List.forall_mem_cons]
    exact ⟨fun _ => noCall_textLiteral image, fun _ => noCall_numberLiteral duration,
      fun _ => noCall_numberLiteral x, fun _ => noCall_numberLiteral y,
      fun _ => noCall_sizeLiteral hsize, List.forall_mem_nil _⟩
  · simp

theorem findsWaits_keyboardValues : FindsWaits keyboardValues := by
  intro node p target context h
  simp only [keyboardValues, bind_eq_ok_iff] at h
  obtain ⟨keys, -, duration, hduration, storeCorrect, -, correctAnswer, -, h⟩ := h
  rw [← Except.ok.inj h]
  refine waitsOnly_insertAll ?_ ?_
  · simp only [List.forall_mem_cons]
    exact ⟨fun _ => noCall_keysLiteral keys, fun _ => noCall_numberLiteral duration,
      fun hne => absurd rfl hne, fun _ => noCall_boolLiteral storeCorrect,
      fun _ => noCall_textLiteral correctAnswer, List.forall_mem_nil _⟩
  · simpa using ⟨duration, hduration, rfl⟩

theorem findsWaits_gpioValues : FindsWaits gpioValues := by
  intro node p target context h
  simp only [gpioValues, bind_eq_ok_iff] at h
  obtain ⟨pin, -, state, -, duration, -, h⟩ := h
  rw [← Except.ok.inj h]
  refine waitsOnly_insertAll ?_ ?_
  · simp only [List.forall_mem_cons]
    exact ⟨fun _ => noCall_toString pin, fun _ => noCall_boolLiteral state,
      fun _ => noCall_numberLiteral duration, List.forall_mem_nil _⟩
  · simp

end FlowScript
