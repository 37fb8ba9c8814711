/-
Integers given as texts. The readers of numbers make the same of an integer of
64 bits (`readAs_of_number`) and of its decimal digits with any blanks around
them (`readAs_of_text`). So it does not matter which of the two a property is
given as, in the table or in the data of a node, and a node of a built-in kind
becomes the same piece or fails alike (`interchangeable_of_padded`).
-/
import FlowScript.Proofs.Effective
import FlowScript.Proofs.KeyNames
import FlowScript.Proofs.Representable

namespace FlowScript

/-! ## Reading the digits of integers -/

theorem Text.isBlank_of_isDigit {c : Char} (h : c.isDigit = true) : isBlank c = false := by
  have hbounds : 48 ≤ c.toNat ∧ c.toNat ≤ 57 := by
    simpa [Char.isDigit, UInt32.le_iff_toNat_le] using h
  rw [isBlank, List.any_eq_false]
  simp only [blankRanges, List.forall_mem_cons, List.not_mem_nil, false_implies, implies_true, and_true,
    decide_eq_true_eq]
  omega

namespace Decimal

/-- The text of an integer is how it is written as a number. -/
theorem toList_toString (n : Int) : (toString n).toList = integerText n := by
  have hdigits : ∀ m : Nat, (toString m).toList = digits m := by
    intro m
    rw [Nat.toString_eq_ofList_toDigits, String.toList_ofList, digits]
  cases n with
  | ofNat m => exact hdigits m
  | negSucc m =>
    have hminus : toString (Int.negSucc m) = "-" ++ toString (m + 1) := rfl
    rw [hminus, String.toList_append, hdigits, integerText, if_pos (Int.negSucc_lt_zero m)]
    rfl

theorem isBlank_of_mem_integerText {n : Int} {c : Char} (h : c ∈ integerText n) : Text.isBlank c = false := by
  rw [Json.Number.integerText_eq] at h
  rcases List.mem_append.1 h with hsign | hdigit
  · split at hsign
    · rw [List.mem_singleton.1 hsign]
      decide
    · cases hsign
  · exact Text.isBlank_of_isDigit (isDigit_of_mem_digits hdigit)

theorem integerText_ne_nil (n : Int) : integerText n ≠ [] := by
  rw [Json.Number.integerText_eq]
  exact List.append_ne_nil_of_right_ne_nil _ (areDigits_digits n.natAbs).1

theorem isUnsigned_digits (n : Nat) : IsUnsigned (digits n) n 0 := by
  have hdigits := areDigits_digits n
  have hunsigned := IsUnsigned.mk hdigits.2 .absent (.inl hdigits.1) .absent
  simpa [ofDigits_digits] using hunsigned

/-- Without an exponent there is no power of ten, and a number is rounded as it is. -/
theorem scaled_zero (negative : Bool) (n : Nat) : scaled negative n 0 = Binary64.round negative n 1 := by
  by_cases hzero : n = 0
  · rw [hzero, scaled, if_pos rfl, Binary64.round_zero]
  · have hsmall : ¬ 0 + (n.log2 : Int) < -1200 := by omega
    rw [scaled, if_neg hzero, if_neg (by decide), if_neg hsmall, if_pos le_rfl]
    change Binary64.round negative (n * 1) 1 = _
    rw [Nat.mul_one]

/-- The text of an integer is read as the number nearest to it. -/
theorem readReal_integerText (n : Int) : readReal (integerText n) = some (Binary64.ofInt n) := by
  obtain ⟨d, rest, hd, hdigit, -⟩ := (areDigits_digits n.natAbs).cons_head
  rw [Json.Number.integerText_eq, hd, readReal_append (isSign_ite _) (.inl hdigit), ← hd]
  exact readUnsigned_eq_some_iff.2 ⟨_, _, isUnsigned_digits n.natAbs, (scaled_zero _ _).symm⟩

/-- No natural number is read where there is a minus. -/
theorem readNatural_minus (bound : Nat) (cs : List Char) : readNatural bound ('-' :: cs) = none := by
  rw [readNatural_eq]
  exact if_neg fun h => absurd h.2.1 (by simp [dropPlus])

theorem readNatural_integerText {bound : Nat} {n : Int} (hn : n < bound) :
    readNatural bound (integerText n) = if n < 0 then none else some n.toNat := by
  by_cases hneg : n < 0
  · rw [if_pos hneg, integerText, if_pos hneg, readNatural_minus]
  · have hnatural : IsNatural (digits n.natAbs) n.natAbs := by
      have h := IsNatural.mk (.inl rfl) (areDigits_digits n.natAbs)
      rwa [ofDigits_digits] at h
    have habs : n.natAbs = n.toNat := by omega
    rw [if_neg hneg, integerText, if_neg hneg, ← habs]
    exact readNatural_eq_some_iff.2 ⟨hnatural, by omega⟩

end Decimal

/-! ## Integers of 64 bits -/

namespace Json.Number

/-- An integer of 64 bits: below 2^64, and if it is negative not below -2^63. -/
def IsWord (n : Int) : Prop := -(negativeBound : Int) ≤ n ∧ n < wordBound

instance : DecidablePred IsWord := fun n =>
  inferInstanceAs (Decidable (-(negativeBound : Int) ≤ n ∧ n < wordBound))

end Json.Number

namespace Binary64

open Json.Number

/-- The number nearest to an integer of 64 bits is finite, and is zero for zero only. -/
theorem ofInt_eq_finite {n : Int} (hn : IsWord n) :
    ∃ units, ofInt n = .finite (decide (n < 0)) units ∧ (n ≠ 0 → 0 < units) := by
  have hword : n.natAbs ≤ wordBound := by
    have hbounds : (negativeBound : Int) ≤ wordBound := by decide
    unfold IsWord at hn
    omega
  have hround := round_of_le (decide (n < 0)) (by decide) Nat.one_pos (mul_units_le hword)
  refine ⟨_, by rw [ofInt, hround], fun hne => ?_⟩
  refine (two_pow_pos unitExponent).trans_le (le_unitsOf Nat.one_pos ?_)
  rw [Nat.mul_one]
  exact Nat.le_mul_of_pos_left _ (Int.natAbs_pos.2 hne)

theorem isFinite_ofInt {n : Int} (hn : IsWord n) : (ofInt n).isFinite = true := by
  obtain ⟨units, hunits, -⟩ := ofInt_eq_finite hn
  rw [hunits]
  rfl

theorem isNegative_ofInt {n : Int} (hn : IsWord n) : (ofInt n).isNegative = decide (n < 0) := by
  obtain ⟨units, hunits, hpos⟩ := ofInt_eq_finite hn
  rw [hunits, isNegative]
  by_cases hneg : n < 0
  · simp [hneg, hpos hneg.ne]
  · simp [hneg]

end Binary64

namespace Component

open Json.Number

/-! ## Integers as properties -/

/-- The decimal digits of an integer, after a minus if it is negative, with any blanks around them. -/
inductive Padded (n : Int) : String → Prop
  | mk {before after : String} (hbefore : Text.isBlankText before = true)
      (hafter : Text.isBlankText after = true) : Padded n (before ++ toString n ++ after)

/-- What the readers of numbers make of an integer. -/
structure Properties.ReadAs (p : Properties) (key : String) (n : Int) : Prop where
  number : ∀ default, p.numberOr key default = .ok (Binary64.ofInt n)
  nonNegative : ∀ default, p.nonNegativeOr key default =
    if n < 0 then .error ⟨key, .negative⟩ else .ok (Binary64.ofInt n)
  natural : p.requiredNat key = if n < 0 then .error ⟨key, .notNatural⟩ else .ok n.toNat

variable {key : String} {n : Int} {s : String}

theorem Padded.trim_eq (h : Padded n s) : (Text.trim s).toList = Decimal.integerText n := by
  obtain ⟨hbefore, hafter⟩ := h
  have hbare : Text.Bare Text.isBlank (Decimal.integerText n) :=
    .of_forall fun _ => Decimal.isBlank_of_mem_integerText
  rw [Text.isBlankText, List.all_eq_true] at hbefore hafter
  rw [Text.toList_trim, String.toList_append, String.toList_append, Decimal.toList_toString]
  exact Text.strip_between hbare (Decimal.integerText_ne_nil n) hbefore hafter

theorem Padded.isBlankText_eq (h : Padded n s) : Text.isBlankText s = false := by
  rw [Bool.eq_false_iff, Text.isBlankText, Ne, List.all_eq_true, ← Text.strip_eq_nil_iff, ← Text.toList_trim,
    h.trim_eq]
  exact Decimal.integerText_ne_nil n

section Readers

variable {p : Properties} (hn : IsWord n)
include hn

theorem finite_ofInt : Properties.finite key (some (Binary64.ofInt n)) = .ok (Binary64.ofInt n) := by
  have hfinite := Binary64.isFinite_ofInt hn
  generalize Binary64.ofInt n = x at *
  exact if_pos hfinite

theorem nonNegativeOr_of_numberOr {default : Binary64} (h : p.numberOr key default = .ok (Binary64.ofInt n)) :
    p.nonNegativeOr key default = if n < 0 then .error ⟨key, .negative⟩ else .ok (Binary64.ofInt n) := by
  rw [Properties.nonNegativeOr, h]
  simp only [Binary64.isNegative_ofInt hn, decide_eq_true_eq]

theorem readAs_of_number (h : p.get? key = some (.num (.int n))) : p.ReadAs key n := by
  have hnumber : ∀ default, p.numberOr key default = .ok (Binary64.ofInt n) := by
    intro default
    rw [Properties.numberOr, h]
    dsimp only
    rw [toReal, finite_ofInt hn]
  refine ⟨hnumber, fun default => nonNegativeOr_of_numberOr hn (hnumber default), ?_⟩
  rw [Properties.requiredNat, h]
  dsimp only
  rw [toNat?]
  by_cases hneg : n < 0
  · rw [if_pos hneg, if_neg (Int.not_le.2 hneg)]
    rfl
  · rw [if_neg hneg, if_pos (Int.not_lt.1 hneg)]
    rfl

theorem readAs_of_text (hs : Padded n s) (h : p.get? key = some (.str s)) : p.ReadAs key n := by
  have hnumber : ∀ default, p.numberOr key default = .ok (Binary64.ofInt n) := by
    intro default
    rw [Properties.numberOr, h]
    dsimp only
    rw [hs.isBlankText_eq, if_neg Bool.false_ne_true, hs.trim_eq, Decimal.readReal_integerText, finite_ofInt hn]
  refine ⟨hnumber, fun default => nonNegativeOr_of_numberOr hn (hnumber default), ?_⟩
  rw [Properties.requiredNat, h]
  dsimp only
  rw [hs.trim_eq, Decimal.readNatural_integerText hn.2]
  split <;> rfl

end Readers

/-! ## Integers replaced by texts -/

/-- A table and what it is with a text in place of the integer that it has for a key. -/
inductive Retold (key : String) (n : Int) (s : String) : Dict Json → Dict Json → Prop
  | mk {d : Dict Json} (h : d.get? key = some (.num (.int n))) : Retold key n s d (d.insert key (.str s))

/-- The integer is replaced in the entry, or in the data. -/
inductive Properties.Restates (key : String) (n : Int) (s : String) : Properties → Properties → Prop
  | entry {entry entry' data : Dict Json} (h : Retold key n s entry entry') :
      Restates key n s { entry, data } { entry := entry', data }
  | data {entry data data' : Dict Json} (h : Retold key n s data data') :
      Restates key n s { entry, data } { entry, data := data' }

variable {p q : Properties}

theorem Retold.present? {d d' : Dict Json} (h : Retold key n s d d') :
    Properties.present? d key = some (.num (.int n)) ∧ Properties.present? d' key = some (.str s) := by
  obtain ⟨h⟩ := h
  rw [Properties.present?, Properties.present?, h, Dict.get?_insert_self]
  exact ⟨rfl, rfl⟩

theorem Retold.get?_of_ne {d d' : Dict Json} (h : Retold key n s d d') {other : String} (hne : other ≠ key) :
    d.get? other = d'.get? other := by
  obtain ⟨h⟩ := h
  exact (Dict.get?_insert_of_ne _ _ hne).symm

theorem Properties.Restates.get?_of_ne (h : p.Restates key n s q) {other : String} (hne : other ≠ key) :
    p.get? other = q.get? other := by
  cases h with
  | entry h => rw [get?, get?, present?, present?, present?, h.get?_of_ne hne]
  | data h => rw [get?, get?, present?, present?, present?, h.get?_of_ne hne]

/-- The text is found for the key where the integer was, unless the entry has a value besides. -/
theorem Properties.Restates.get?_cases (h : p.Restates key n s q) :
    p.get? key = q.get? key ∨ p.get? key = some (.num (.int n)) ∧ q.get? key = some (.str s) := by
  cases h with
  | entry h =>
    rw [get?, get?, h.present?.1, h.present?.2]
    exact .inr ⟨rfl, rfl⟩
  | @data entry _ _ h =>
    rw [get?, get?, h.present?.1, h.present?.2]
    cases Properties.present? entry key with
    | none => exact .inr ⟨rfl, rfl⟩
    | some t => exact .inl rfl

theorem sameNumber_of_restates (hn : IsWord n) (hs : Padded n s) (h : p.Restates key n s q) : p.SameNumber q key := by
  obtain hsame | ⟨hp, hq⟩ := h.get?_cases
  · exact .of_get? hsame
  · have hnumber := readAs_of_number hn hp
    have htext := readAs_of_text hn hs hq
    refine ⟨fun default => ?_, fun default => ?_, ?_⟩
    · rw [hnumber.number, htext.number]
    · rw [hnumber.nonNegative, htext.nonNegative]
    · rw [hnumber.natural, htext.natural]

theorem textOr_of_restates (h : p.Restates key n (toString n) q) (default : String) :
    p.textOr key default = q.textOr key default := by
  obtain hsame | ⟨hp, hq⟩ := h.get?_cases
  · exact textOr_congr hsame default
  · have hdigits : String.ofList (token (.int n)) = toString n := by
      rw [token, ← Decimal.toList_toString, String.ofList_toList]
    rw [Properties.textOr, Properties.textOr, hp, hq]
    exact congrArg Except.ok hdigits

theorem readAlike_of_restates (hn : IsWord n) (hs : Padded n s) (hkey : key ∈ numberKeys)
    (h : p.Restates key n s q) : p.ReadAlike q := by
  refine ⟨fun other _ hother => h.get?_of_ne ?_, fun other _ => ?_⟩
  · rintro rfl
    exact hother hkey
  · by_cases he : other = key
    · exact he ▸ sameNumber_of_restates hn hs h
    · exact .of_get? (h.get?_of_ne he)

end Component

/-! ## Nodes -/

open Component Json.Number

/-- A node, or its entry in the table, with a text in place of the integer that it has for a key. -/
inductive Node.Restates (key : String) (n : Int) (s : String) : Dict Json → Node → Dict Json → Node → Prop
  | entry {table : Dict Json} {node : Node} {members members' : Dict Json}
      (hentry : table.get? node.id = some (.obj members)) (h : Retold key n s members members') :
      Restates key n s table node (table.insert node.id (.obj members')) node
  | data {table : Dict Json} {node : Node} {data' : Dict Json} (h : Retold key n s node.data data') :
      Restates key n s table node table { node with data := data' }

section Nodes

variable {key : String} {n : Int} {s : String} {table table' : Dict Json} {node node' : Node}

theorem Node.Restates.properties (h : Node.Restates key n s table node table' node') :
    Properties.Restates key n s { entry := Node.properties node.id table, data := node.data }
      { entry := Node.properties node'.id table', data := node'.data } := by
  cases h with
  | @entry members members' hentry h =>
    have hmembers : Node.properties node.id table = members := by
      rw [Node.properties, hentry]
      rfl
    have hmembers' : Node.properties node.id (table.insert node.id (.obj members')) = members' := by
      rw [Node.properties, Dict.get?_insert_self]
      rfl
    rw [hmembers, hmembers']
    exact .entry h
  | data h => exact .data h

theorem Node.Restates.odd (h : Node.Restates key n s table node table' node') :
    oddEntry? node.id table = oddEntry? node'.id table' := by
  cases h with
  | entry hentry =>
    unfold oddEntry?
    rw [hentry, Dict.get?_insert_self]
  | data => rfl

theorem Node.Restates.resolved (hkey : key ≠ "label") (h : Node.Restates key n s table node table' node') :
    SameBesidesData node.resolved node'.resolved := by
  cases h with
  | entry => exact ⟨rfl, rfl, rfl, rfl⟩
  | data h =>
    refine sameBesidesData_resolved rfl rfl ?_
    rw [label?, label?, h.get?_of_ne hkey.symm]

theorem outcome_of_restates {c : Compiler}
    (hc : ∀ kind, c.palette.get? node.type = some kind → builtin.get? node.type = some kind)
    (hn : IsWord n) (hs : Padded n s) (hkey : key ∈ numberKeys)
    (h : Node.Restates key n s table node table' node') : c.outcome table node = c.outcome table' node' := by
  have hlabel : key ≠ "label" := by
    rintro rfl
    exact absurd hkey (by decide)
  have hsame := h.resolved hlabel
  have hraw := readAlike_of_restates hn hs hkey h.properties
  have hread := (node.agree_resolved _).readAlike.trans (hraw.trans
    (Properties.Agree.readAlike fun other hother => (node'.agree_resolved _ other hother).symm))
  exact Compiler.outcome_of_render hsame.type hsame.label h.odd
    fun kind hk => render_builtin_of_readAlike (hc kind hk) hsame hread c.templates

end Nodes

/-- An integer and a text that are interchangeable as the property of some key. -/
structure Interchangeable (key : String) (n : Int) (s : String) : Prop where
  /-- The digits alone are also the text that the integer is read as. -/
  text : s = toString n → ∀ {p q : Properties}, p.Restates key n s q →
    ∀ default, p.textOr key default = q.textOr key default
  /-- The readers of numbers find the same, or fail alike. -/
  number : ∀ {p q : Properties}, p.Restates key n s q → p.SameNumber q key
  /-- What they find is the integer, whichever of the two is given. -/
  readAs : ∀ {p : Properties}, p.get? key = some (.num (.int n)) ∨ p.get? key = some (.str s) → p.ReadAs key n
  /-- A built-in kind makes the same piece of a node, or fails alike. -/
  piece : key ∈ numberKeys → ∀ {type kind}, builtin.get? type = some kind →
    ∀ {p q : Properties}, p.Restates key n s q → ∀ (node : Node.Resolved) templates,
      kind.render { node with data := p.data } p.entry templates =
        kind.render { node with data := q.data } q.entry templates
  /-- So nodes of the built-in kinds become the same in a compilation, whatever the templates are. -/
  outcome : key ∈ numberKeys → ∀ {c : Compiler} {table node table' node'},
    (∀ kind, c.palette.get? node.type = some kind → builtin.get? node.type = some kind) →
    Node.Restates key n s table node table' node' → c.outcome table node = c.outcome table' node'

/-- **An integer and its digits are interchangeable as a property**, in the
table and in the data: the readers of numbers make the same of an integer of 64
bits and of its digits with any blanks around them, and the reader of texts
makes the same of it and of its digits alone. So it does not matter which of
the two the numbers of a node are given as. -/
theorem interchangeable_of_padded {n : Int} {s : String} (hn : IsWord n) (hs : Padded n s) (key : String) :
    Interchangeable key n s where
  text := by
    rintro rfl p q h default
    exact textOr_of_restates h default
  number := sameNumber_of_restates hn hs
  readAs := by
    rintro p (hnumber | htext)
    · exact readAs_of_number hn hnumber
    · exact readAs_of_text hn hs htext
  piece := by
    intro hkey type kind hk p q h node templates
    have hsame : SameBesidesData { node with data := p.data } { node with data := q.data } := ⟨rfl, rfl, rfl, rfl⟩
    exact render_builtin_of_readAlike hk hsame (readAlike_of_restates hn hs hkey h) templates
  outcome := fun hkey {_ _ _ _ _} hc h => outcome_of_restates hc hn hs hkey h

/-- A compiler with one template, of digital outputs. -/
def pulseCompiler : Compiler :=
  .ofTemplates (.ofList .browser [("components/gpio.js", "pulse({pin}, {duration})")]) builtin

/-- A digital output that is set for some duration. -/
def pulseNode (duration : Json) : Node := { id := "b", type := "gpio", data := [("duration", duration)] }

/-- A table with the pin of that output. -/
def pinTable (pin : Json) : Dict Json := [("b", .obj [("pin", pin)])]

/-- One more than 2^53, with blanks around it. -/
def oddDuration : String := "\u3000 9007199254740993\t"

/-- A duration in the data is rounded to an even number, and a pin below zero
in the table is refused, as integers and as texts. -/
theorem interchangeable_of_padded_oddDuration :
    (IsWord 9007199254740993 ∧ Padded 9007199254740993 oddDuration ∧
      pulseCompiler.outcome (pinTable (.num (.int 17))) (pulseNode (.num (.int 9007199254740993))) =
        pulseCompiler.outcome (pinTable (.num (.int 17))) (pulseNode (.str oddDuration)) ∧
      pulseCompiler.outcome (pinTable (.num (.int 17))) (pulseNode (.str oddDuration)) =
        .emitted "pulse(17, 9007199254740992)" ["component_b"]) ∧
    IsWord (-9223372036854775808) ∧ Padded (-9223372036854775808) "-9223372036854775808" ∧
      pulseCompiler.outcome (pinTable (.num (.int (-9223372036854775808)))) (pulseNode .null) =
        pulseCompiler.outcome (pinTable (.str "-9223372036854775808")) (pulseNode .null) ∧
      pulseCompiler.outcome (pinTable (.str "-9223372036854775808")) (pulseNode .null) =
        .failed (.property ⟨"pin", .notNatural⟩) := by
  have hbuiltin : ∀ (node : Node) (kind : Kind),
      pulseCompiler.palette.get? node.type = some kind → builtin.get? node.type = some kind :=
    fun _ _ hk => hk
  have hodd : IsWord 9007199254740993 := by decide
  have hlowest : IsWord (-9223372036854775808) := by decide
  have hblanks : Padded 9007199254740993 oddDuration := @Padded.mk 9007199254740993 "\u3000 " "\t" rfl rfl
  have hminus : Padded (-9223372036854775808) "-9223372036854775808" :=
    @Padded.mk (-9223372036854775808) "" "" rfl rfl
  have hduration := interchangeable_of_padded hodd hblanks "duration"
  have hpin := interchangeable_of_padded hlowest hminus "pin"
  refine ⟨⟨hodd, hblanks, ?_, by decide +kernel⟩, hlowest, hminus, ?_, by decide +kernel⟩
  · exact hduration.outcome (by decide) (hbuiltin _) (.data (.mk rfl))
  · exact hpin.outcome (by decide) (hbuiltin _) (.entry rfl (.mk rfl))

end FlowScript
