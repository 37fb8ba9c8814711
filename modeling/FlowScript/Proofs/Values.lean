/-
What stands for the fields of a template. A value is an identifier, a text in
a comment or an expression, by the key it stands for (`Role`). Every context
that a built-in kind of component makes describes its node: each value suits
its role, and the label, the displayed label and the type are the node's own.
-/
import FlowScript.Proofs.Expression
import FlowScript.Proofs.Filling

namespace FlowScript

open Component

/-- What the value of a key is in a program. -/
inductive Role where
  | identifier
  /-- A text in a comment. -/
  | remark
  | expression
deriving DecidableEq, Repr

def remarkKeys : List String := ["display_label", "node_type", "node_id"]

def Role.ofKey (key : String) : Role :=
  if key = "label" then .identifier else if remarkKeys.contains key then .remark else .expression

/-- A text that stays in its comment: it has no control characters, and of
the blanks only spaces. -/
def IsRemark (cs : List Char) : Prop :=
  ∀ c ∈ cs, Text.isControl c = false ∧ (Text.isBlank c = true → c = ' ')

/-- What a value of some role must be. -/
def Suits (target : Target) (cs : List Char) : Role → Prop
  | .identifier => Identifier.isIdentifier (String.ofList cs) = true
  | .remark => IsRemark cs
  | .expression => IsExpression target cs

variable {target : Target}

theorem isIdentifier_iff {cs : List Char} :
    Identifier.isIdentifier (String.ofList cs) = true ↔
      ∃ c rest, cs = c :: rest ∧ Identifier.isStart c = true ∧ ∀ d ∈ rest, Identifier.isPart d = true := by
  rw [Identifier.isIdentifier, String.toList_ofList]
  cases cs with
  | nil => simp
  | cons c rest =>
    simp only [Bool.and_eq_true, List.all_eq_true]
    constructor
    · rintro ⟨hc, hrest⟩
      exact ⟨c, rest, rfl, hc, hrest⟩
    · rintro ⟨d, ds, he, hd, hds⟩
      cases he
      exact ⟨hd, hds⟩

theorem isPart_of_isIdentifier {cs : List Char} (h : Identifier.isIdentifier (String.ofList cs) = true) :
    ∀ c ∈ cs, Identifier.isPart c = true := by
  obtain ⟨c, rest, rfl, hc, hrest⟩ := isIdentifier_iff.1 h
  exact List.forall_mem_cons.2 ⟨Identifier.isPart_of_isStart hc, hrest⟩

theorem ne_of_isPart {c d : Char} (h : Identifier.isPart c = true) (hd : Identifier.isPart d = false) :
    c ≠ d := by
  rintro rfl
  rw [hd] at h
  cases h

theorem isRemark_commentSafe (s : String) : IsRemark (Identifier.commentSafe s).toList := by
  rw [Identifier.commentSafe, String.toList_ofList]
  intro c hc
  obtain ⟨d, -, rfl⟩ := List.mem_map.1 hc
  rw [Identifier.safeChar]
  split
  next => exact ⟨by decide, fun _ => rfl⟩
  next h =>
    simp only [Bool.or_eq_true, Bool.and_eq_true, bne_iff_ne, not_or, not_and, Bool.not_eq_true,
      ne_eq, Decidable.not_not] at h
    exact h

/-- No value goes beyond its line. -/
theorem Suits.oneLine {cs : List Char} {role : Role} (h : Suits target cs role) :
    ∀ c ∈ cs, c ≠ '\n' ∧ c ≠ '\r' := by
  cases role with
  | identifier =>
    intro c hc
    have hpart := isPart_of_isIdentifier h c hc
    exact ⟨ne_of_isPart hpart (by decide), ne_of_isPart hpart (by decide)⟩
  | remark =>
    intro c hc
    obtain ⟨hcontrol, -⟩ := h c hc
    constructor
    · rintro rfl; cases hcontrol
    · rintro rfl; cases hcontrol
  | expression => exact IsExpression.oneLine h

/-! ## Contexts -/

/-- A context with the node's own names, in which every value suits its key. -/
structure Describes (target : Target) (node : Node.Resolved) (context : Template.Context) : Prop where
  label : context.get? "label" = some node.label
  displayLabel : context.get? "display_label" = some (Identifier.commentSafe node.displayLabel)
  type : context.get? "node_type" = some (Identifier.commentSafe node.type)
  suits : ∀ key value, context.get? key = some value → Suits target value.toList (.ofKey key)

theorem suits_insert {context : Template.Context} {key value : String}
    (h : ∀ k v, context.get? k = some v → Suits target v.toList (.ofKey k))
    (hv : Suits target value.toList (.ofKey key)) :
    ∀ k v, (context.insert key value).get? k = some v → Suits target v.toList (.ofKey k) := by
  intro k v hk
  by_cases hkey : k = key
  · subst hkey
    rw [Dict.get?_insert_self] at hk
    cases hk
    exact hv
  · rw [Dict.get?_insert_of_ne _ _ hkey] at hk
    exact h k v hk

theorem describes_baseContext {node : Node.Resolved}
    (h : Identifier.isIdentifier node.label = true) :
    Describes target node (baseContext target node) := by
  refine ⟨?_, ?_, ?_, ?_⟩
  · simp [baseContext, Dict.ofList, Dict.insertAll, Dict.get?_insert_of_ne]
  · simp [baseContext, Dict.ofList, Dict.insertAll, Dict.get?_insert_of_ne]
  · simp [baseContext, Dict.ofList, Dict.insertAll, Dict.get?_insert_of_ne]
  simp only [baseContext, Dict.ofList, Dict.insertAll, List.foldl_cons, List.foldl_nil]
  refine suits_insert (suits_insert (suits_insert (suits_insert (suits_insert ?_ ?_) ?_) ?_) ?_) ?_
  · intro k v hk
    cases hk
  · change Identifier.isIdentifier (String.ofList node.label.toList) = true
    rw [String.ofList_toList]
    exact h
  · exact isExpression_textLiteral node.label
  · exact isRemark_commentSafe node.displayLabel
  · exact isRemark_commentSafe node.type
  · exact isRemark_commentSafe node.id

/-- An expression changes nothing that describes the node. -/
theorem Describes.insert {node : Node.Resolved} {context : Template.Context}
    (h : Describes target node context) {key value : String} (hkey : Role.ofKey key = .expression)
    (hv : IsExpression target value.toList) : Describes target node (context.insert key value) := by
  have hne : ∀ k, Role.ofKey k ≠ .expression → k ≠ key := by
    rintro k hk rfl
    exact hk hkey
  refine ⟨?_, ?_, ?_, suits_insert h.suits (hkey ▸ hv)⟩
  · rw [Dict.get?_insert_of_ne _ _ (hne "label" (by decide))]
    exact h.label
  · rw [Dict.get?_insert_of_ne _ _ (hne "display_label" (by decide))]
    exact h.displayLabel
  · rw [Dict.get?_insert_of_ne _ _ (hne "node_type" (by decide))]
    exact h.type

/-- Keys with expressions for them. -/
def Expressions (target : Target) (pairs : List (String × String)) : Prop :=
  ∀ p ∈ pairs, Role.ofKey p.1 = .expression ∧ IsExpression target p.2.toList

theorem Expressions.nil : Expressions target [] := fun _ h => by cases h

theorem Expressions.cons {key value : String} {pairs : List (String × String)}
    (hkey : Role.ofKey key = .expression) (hv : IsExpression target value.toList)
    (h : Expressions target pairs) : Expressions target ((key, value) :: pairs) :=
  List.forall_mem_cons.2 ⟨⟨hkey, hv⟩, h⟩

theorem Describes.insertAll {node : Node.Resolved} {context : Template.Context}
    (h : Describes target node context) {pairs : List (String × String)}
    (hp : Expressions target pairs) : Describes target node (context.insertAll pairs) := by
  induction pairs generalizing context with
  | nil => exact h
  | cons p pairs ih =>
    obtain ⟨⟨hkey, hv⟩, hpairs⟩ := List.forall_mem_cons.1 hp
    exact ih (h.insert hkey hv) hpairs

theorem isSome_get?_insertAll {context : Template.Context} {key : String}
    {pairs : List (String × String)} (h : (context.get? key).isSome ∨ key ∈ pairs.map (·.1)) :
    ((context.insertAll pairs).get? key).isSome := by
  induction pairs generalizing context with
  | nil => exact h.resolve_right List.not_mem_nil
  | cons p pairs ih =>
    refine ih ?_
    by_cases hkey : key = p.1
    · exact .inl (by rw [hkey, Dict.get?_insert_self]; rfl)
    · rw [Dict.get?_insert_of_ne _ _ hkey]
      refine h.imp_right fun hm => ?_
      exact (List.mem_cons.1 hm).resolve_left hkey

/-- What is found in a dictionary with more pairs was there before or is one of them. -/
theorem get?_insertAll {α : Type} {d : Dict α} {key : String} {value : α} {pairs : List (String × α)}
    (h : (d.insertAll pairs).get? key = some value) : d.get? key = some value ∨ (key, value) ∈ pairs := by
  induction pairs generalizing d with
  | nil => exact .inl h
  | cons p pairs ih =>
    rcases ih h with h | h
    · by_cases hk : key = p.1
      · rw [hk, Dict.get?_insert_self, Option.some.injEq] at h
        exact .inr (by rw [hk, ← h]; exact List.mem_cons_self)
      · rw [Dict.get?_insert_of_ne _ _ hk] at h
        exact .inl h
    · exact .inr (List.mem_cons_of_mem _ h)

theorem get?_ofList {α : Type} {pairs : List (String × α)} {key : String} {value : α}
    (h : (Dict.ofList pairs).get? key = some value) : (key, value) ∈ pairs :=
  (get?_insertAll h).resolve_left nofun

/-! ## Built-in kinds -/

/-- The keys that every component template may use. -/
def baseKeys : List String := ["label", "name", "display_label", "node_type", "node_id"]

/-- A context for a node, with values for some keys. -/
structure IsFilling (target : Target) (node : Node.Resolved) (keys : List String)
    (context : Template.Context) : Prop where
  describes : Describes target node context
  bound : ∀ key ∈ keys, (context.get? key).isSome

theorem isFilling_insertAll {node : Node.Resolved} (h : Identifier.isIdentifier node.label = true)
    {pairs : List (String × String)} (hp : Expressions target pairs) :
    IsFilling target node (baseKeys ++ pairs.map (·.1))
      ((baseContext target node).insertAll pairs) := by
  refine ⟨(describes_baseContext h).insertAll hp, fun key hkey => isSome_get?_insertAll ?_⟩
  refine (List.mem_append.1 hkey).imp_left fun hbase => ?_
  exact @isSome_get?_insertAll [] key _ (.inr hbase)

/-- The values that a kind finds for a node, if it finds them, are those of some keys. -/
def Finds (values : Filling) (keys : List String) : Prop :=
  ∀ node p target context, Identifier.isIdentifier node.label = true →
    values node p target = .ok context → IsFilling target node (baseKeys ++ keys) context

theorem finds_textValues : Finds textValues ["text", "duration", "x", "y", "height", "color"] := by
  intro node p target context hid h
  simp only [textValues, bind_eq_ok_iff] at h
  obtain ⟨text, -, duration, -, x, -, y, -, height, -, -, -, color, -, h⟩ := h
  rw [← Except.ok.inj h]
  exact isFilling_insertAll hid <|
    .cons (by decide) (isExpression_textLiteral text) <|
    .cons (by decide) (isExpression_numberLiteral duration) <|
    .cons (by decide) (isExpression_numberLiteral x) <|
    .cons (by decide) (isExpression_numberLiteral y) <|
    .cons (by decide) (isExpression_numberLiteral height) <|
    .cons (by decide) (isExpression_textLiteral color) .nil

theorem isExpression_sizeLiteral {size : Option Json} {code : String}
    (h : sizeLiteral target size = .ok code) : IsExpression target code.toList := by
  cases size with
  | none => cases h; exact isExpression_noneLiteral
  | some t =>
    simp only [sizeLiteral, bind_eq_ok_iff] at h
    obtain ⟨⟨width, height⟩, -, h⟩ := h
    cases h
    exact isExpression_sizePair width height

theorem finds_imageValues : Finds imageValues ["image", "duration", "x", "y", "size"] := by
  intro node p target context hid h
  simp only [imageValues, bind_eq_ok_iff] at h
  obtain ⟨image, -, duration, -, x, -, y, -, size, hsize, h⟩ := h
  rw [← Except.ok.inj h]
  exact isFilling_insertAll hid <|
    .cons (by decide) (isExpression_textLiteral image) <|
    .cons (by decide) (isExpression_numberLiteral duration) <|
    .cons (by decide) (isExpression_numberLiteral x) <|
    .cons (by decide) (isExpression_numberLiteral y) <|
    .cons (by decide) (isExpression_sizeLiteral hsize) .nil

theorem finds_keyboardValues :
    Finds keyboardValues ["allowed_keys", "duration", "max_wait", "store_correct", "correct_answer"] := by
  intro node p target context hid h
  simp only [keyboardValues, bind_eq_ok_iff] at h
  obtain ⟨keys, -, duration, -, storeCorrect, -, correctAnswer, -, h⟩ := h
  rw [← Except.ok.inj h]
  exact isFilling_insertAll hid <|
    .cons (by decide) (isExpression_keysLiteral keys) <|
    .cons (by decide) (isExpression_numberLiteral duration) <|
    .cons (by decide) (isExpression_waitLiteral duration) <|
    .cons (by decide) (isExpression_boolLiteral storeCorrect) <|
    .cons (by decide) (isExpression_textLiteral correctAnswer) .nil

theorem finds_gpioValues : Finds gpioValues ["pin", "state", "duration"] := by
  intro node p target context hid h
  simp only [gpioValues, bind_eq_ok_iff] at h
  obtain ⟨pin, -, state, -, duration, -, h⟩ := h
  rw [← Except.ok.inj h]
  exact isFilling_insertAll hid <|
    .cons (by decide) (isExpression_toString pin) <|
    .cons (by decide) (isExpression_boolLiteral state) <|
    .cons (by decide) (isExpression_numberLiteral duration) .nil

end FlowScript
