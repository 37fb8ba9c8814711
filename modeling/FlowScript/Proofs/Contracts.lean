/-
What the built-in kinds accept. Each kind has a contract: a list of rules for
its properties, in the order in which they are read. A node whose properties
meet all rules gets values for its template, and otherwise the first rule that
is not met is reported (`Contract.Kept`). What a rule accepts is said of
documents and of the texts in them, without the readers.
-/
import FlowScript.Proofs.Embedded
import FlowScript.Proofs.Magnitudes

namespace FlowScript

namespace Component

open Binary64

/-! ## Rules -/

/-- The value of a property: of the entry, or of the data if the entry has
none. Null is no value. -/
inductive Properties.Has (p : Properties) (key : String) (t : Json) : Prop
  | entry (h : p.entry.get? key = some t) (hnull : t ≠ .null)
  | data (h : p.data.get? key = some t) (hnull : t ≠ .null)
      (hentry : ∀ t', p.entry.get? key = some t' → t' = .null)

/-- What a property must be. -/
structure Rule where
  key : String
  required : Bool
  accepts : Json → Prop

structure Rule.Met (r : Rule) (p : Properties) : Prop where
  present : r.required = true → ∃ t, p.Has r.key t
  accepted : ∀ t, p.Has r.key t → r.accepts t

/-- The rule for a property that may be left out. -/
def Rule.optional (key : String) (accepts : Json → Prop) : Rule := { key, required := false, accepts }

/-- The rule for a property that must be there. -/
def Rule.needed (key : String) (accepts : Json → Prop) : Rule := { key, required := true, accepts }

/-! ## What rules accept -/

inductive IsText : Json → Prop
  | text (s : String) : IsText (.str s)
  | number (n : Json.Number) : IsText (.num n)

/-- A text with a character that is not blank. -/
inductive IsFilled : Json → Prop
  | mk {s c} (hmem : c ∈ s.toList) (hc : Text.isBlank c = false) : IsFilled (.str s)

inductive IsBlank : Json → Prop
  | mk {s} (h : ∀ c ∈ s.toList, Text.isBlank c = true) : IsBlank (.str s)

/-- A sign and a magnitude that a finite number or the decimal in a text stands for. -/
inductive IsAmount : Json → Bool → ℚ → Prop
  | number {n negative units} (h : n.toReal = .finite negative units) :
      IsAmount (.num n) negative (units / 2 ^ unitExponent)
  | decimal {s negative significand e}
      (h : Decimal.IsDecimal (Text.trim s).toList negative significand e)
      (hfinite : significand * (10 : ℚ) ^ e < huge) :
      IsAmount (.str s) negative (significand * (10 : ℚ) ^ e)

/-- Where an amount must lie. -/
inductive Range where
  | any
  | nonNegative
  | positive

/-- What is rounded to zero counts as zero. -/
def Range.Holds : Range → Bool → ℚ → Prop
  | .any, _, _ => True
  | .nonNegative, negative, q => negative = true → q ≤ tiny
  | .positive, negative, q => negative = false ∧ tiny < q

/-- An amount, or a blank text, which counts as absent. -/
inductive IsQuantity (range : Range) (t : Json) : Prop
  | blank (h : IsBlank t)
  | amount {negative q} (h : IsAmount t negative q) (hrange : range.Holds negative q)

/-- Two positive numbers. -/
inductive IsSize : Json → Prop
  | mk {w h : Json.Number} (hw : IsQuantity .positive (.num w)) (hh : IsQuantity .positive (.num h)) :
      IsSize (.arr [.num w, .num h])

/-- Names of keys, in one text or one by one. -/
inductive IsKeys : Json → Prop
  | text (s : String) : IsKeys (.str s)
  | names {items} (h : ∀ t ∈ items, IsFilled t) : IsKeys (.arr items)

inductive IsTruth : Json → Prop
  | value (b : Bool) : IsTruth (.bool b)
  | word {s} (h : Text.fold (Text.trim s) ∈ ["true", "false"]) : IsTruth (.str s)

/-- The number of a pin of the header. -/
inductive IsPin : Json → Prop
  | number {n : Nat} (h : n ≤ 27) : IsPin (.num (.int n))
  | numeral {s n} (h : Decimal.IsNatural (Text.trim s).toList n) (hmax : n ≤ 27) : IsPin (.str s)

inductive IsLevel : Json → Prop
  | value (b : Bool) : IsLevel (.bool b)
  | number {n : Nat} (h : n = 0 ∨ n = 1) : IsLevel (.num (.int n))
  | word {s} (h : Text.fold (Text.trim s) ∈ ["high", "on", "true", "1", "low", "off", "false", "0"]) :
      IsLevel (.str s)

/-! ## Contracts -/

/-- How the values of a type are found, and the rules for that in the order of reading. -/
structure Contract where
  type : String
  values : Filling
  rules : List Rule

def textContract : Contract where
  type := "text"
  values := textValues
  rules := [.optional "text" IsText, .optional "duration" (IsQuantity .nonNegative),
    .optional "x" (IsQuantity .any), .optional "y" (IsQuantity .any),
    .optional "height" (IsQuantity .positive), .optional "color" IsText]

def imageContract : Contract where
  type := "image"
  values := imageValues
  rules := [.needed "image" IsFilled, .optional "duration" (IsQuantity .nonNegative),
    .optional "x" (IsQuantity .any), .optional "y" (IsQuantity .any), .optional "size" IsSize]

def keyboardContract : Contract where
  type := "keyboard"
  values := keyboardValues
  rules := [.optional "allowed_keys" IsKeys, .optional "duration" (IsQuantity .nonNegative),
    .optional "store_correct" IsTruth, .optional "correct_answer" IsText]

def gpioContract : Contract where
  type := "gpio"
  values := gpioValues
  rules := [.needed "pin" IsPin, .optional "state" IsLevel, .optional "duration" (IsQuantity .nonNegative)]

/-- The contracts of the built-in kinds. -/
def contracts : List Contract := [textContract, imageContract, keyboardContract, gpioContract]

/-- The first rule that is not met, by its key. -/
inductive FirstUnmet (p : Properties) : List Rule → String → Prop
  | here {r rules} (h : ¬ r.Met p) : FirstUnmet p (r :: rules) r.key
  | later {r rules key} (h : r.Met p) (hrest : FirstUnmet p rules key) : FirstUnmet p (r :: rules) key

/-- A reader that gives something if all rules are met, and otherwise reports the first that is not. -/
structure Follows {α : Type} (p : Properties) (rules : List Rule) (read : Except PropertyFault α) : Prop where
  met : ∀ a, read = .ok a → ∀ r ∈ rules, r.Met p
  unmet : ∀ fault, read = .error fault → FirstUnmet p rules fault.key

/-- A contract that is kept, whatever the node, its properties and the target are. -/
structure Contract.Kept (c : Contract) : Prop where
  accepts_iff : ∀ node p target, (∃ context, c.values node p target = .ok context) ↔ ∀ r ∈ c.rules, r.Met p
  reported : ∀ node p target fault, c.values node p target = .error fault → FirstUnmet p c.rules fault.key

variable {α β : Type} {p : Properties} {rules rules' : List Rule}

/-! ## Sequences of readers -/

theorem FirstUnmet.append_right {key : String} (h : FirstUnmet p rules key) (rules' : List Rule) :
    FirstUnmet p (rules ++ rules') key := by
  induction h with
  | here h => exact .here h
  | later h _ ih => exact .later h ih

theorem FirstUnmet.append_left {key : String} (hrules : ∀ r ∈ rules, r.Met p) (h : FirstUnmet p rules' key) :
    FirstUnmet p (rules ++ rules') key := by
  induction rules with
  | nil => exact h
  | cons r rules ih =>
    rw [List.forall_mem_cons] at hrules
    exact .later hrules.1 (ih hrules.2)

theorem FirstUnmet.exists_not_met {key : String} (h : FirstUnmet p rules key) : ∃ r ∈ rules, ¬ r.Met p := by
  induction h with
  | here h => exact ⟨_, List.mem_cons_self, h⟩
  | later _ _ ih =>
    obtain ⟨r, hr, h⟩ := ih
    exact ⟨r, List.mem_cons_of_mem _ hr, h⟩

theorem Follows.pure (a : α) : Follows p [] (.ok a) :=
  ⟨fun _ _ _ hr => absurd hr List.not_mem_nil, fun _ h => nomatch h⟩

/-- What is read after a check of what was read before. -/
theorem Follows.bind_check {read : Except PropertyFault α} {check : α → Except PropertyFault Unit}
    {next : α → Except PropertyFault β} (h : Follows p rules (read >>= check))
    (hnext : ∀ a, Follows p rules' (next a)) :
    Follows p (rules ++ rules') (read >>= fun a => check a >>= fun _ => next a) := by
  constructor
  · intro b hb
    obtain ⟨a, ha, hb⟩ := bind_eq_ok_iff.1 hb
    obtain ⟨u, hu, hb⟩ := bind_eq_ok_iff.1 hb
    exact List.forall_mem_append.2 ⟨h.met u (bind_eq_ok_iff.2 ⟨a, ha, hu⟩), (hnext a).met b hb⟩
  · intro fault hfault
    rcases bind_eq_error_iff.1 hfault with hread | ⟨a, ha, hfault⟩
    · exact (h.unmet fault (bind_eq_error_iff.2 (.inl hread))).append_right rules'
    rcases bind_eq_error_iff.1 hfault with hcheck | ⟨u, hu, hfault⟩
    · exact (h.unmet fault (bind_eq_error_iff.2 (.inr ⟨a, ha, hcheck⟩))).append_right rules'
    · exact .append_left (h.met u (bind_eq_ok_iff.2 ⟨a, ha, hu⟩)) ((hnext a).unmet fault hfault)

theorem Follows.bind {read : Except PropertyFault α} {next : α → Except PropertyFault β}
    (h : Follows p rules read) (hnext : ∀ a, Follows p rules' (next a)) :
    Follows p (rules ++ rules') (read >>= next) := by
  constructor
  · intro b hb
    obtain ⟨a, ha, hb⟩ := bind_eq_ok_iff.1 hb
    exact List.forall_mem_append.2 ⟨h.met a ha, (hnext a).met b hb⟩
  · intro fault hfault
    rcases bind_eq_error_iff.1 hfault with hread | ⟨a, ha, hfault⟩
    · exact (h.unmet fault hread).append_right rules'
    · exact .append_left (h.met a ha) ((hnext a).unmet fault hfault)

/-- A contract whose rules its reader follows is kept. -/
theorem Contract.Kept.of_follows {c : Contract} (h : ∀ node p target, Follows p c.rules (c.values node p target)) :
    c.Kept := by
  refine ⟨fun node p target => ⟨?_, fun hmet => ?_⟩, fun node p target => (h node p target).unmet⟩
  · rintro ⟨context, hok⟩
    exact (h node p target).met context hok
  · refine exists_ok_iff.2 fun fault hfault => ?_
    obtain ⟨r, hr, hunmet⟩ := ((h node p target).unmet fault hfault).exists_not_met
    exact hunmet (hmet r hr)

/-! ## Readers of one property -/

/-- A reader that gives something just if `accepted`, and else reports the key. -/
inductive Decides (key : String) (accepted : Prop) : Except PropertyFault α → Prop
  | ok (h : accepted) (a : α) : Decides key accepted (.ok a)
  | error (h : ¬ accepted) (reason : Reason) : Decides key accepted (.error ⟨key, reason⟩)

theorem Decides.follows {r : Rule} {read : Except PropertyFault α} (h : Decides r.key (r.Met p) read) :
    Follows p [r] read := by
  cases h with
  | ok h a => exact ⟨fun _ _ => List.forall_mem_singleton.2 h, fun _ h => nomatch h⟩
  | error h reason =>
    constructor
    · rintro _ ⟨⟩
    · rintro fault ⟨⟩
      exact .here h

theorem Decides.congr {key : String} {P Q : Prop} {read : Except PropertyFault α} (h : Decides key P read)
    (hiff : P ↔ Q) : Decides key Q read := by
  rwa [← propext hiff]

theorem Decides.bind_pure {key : String} {P : Prop} {read : Except PropertyFault α} (h : Decides key P read)
    (f : α → β) : Decides key P (read >>= fun a => .ok (f a)) := by
  cases h with
  | ok h a => exact .ok h (f a)
  | error h reason => exact .error h reason

theorem Decides.mapM {key : String} {P : Json → Prop} {f : Json → Except PropertyFault α}
    (h : ∀ t, Decides key (P t) (f t)) (items : List Json) : Decides key (∀ t ∈ items, P t) (items.mapM f) := by
  induction items with
  | nil => exact .ok (List.forall_mem_nil P) []
  | cons t items ih =>
    rw [List.mapM_cons]
    refine Decides.congr ?_ List.forall_mem_cons.symm
    have hfirst := h t
    generalize f t = first at *
    generalize items.mapM f = rest at *
    cases hfirst with
    | error ht reason => exact .error (fun hall => ht hall.1) reason
    | ok ht a =>
      cases ih with
      | error hitems reason => exact .error (fun hall => hitems hall.2) reason
      | ok hitems as => exact .ok ⟨ht, hitems⟩ (a :: as)

/-! ## Values of properties -/

theorem Properties.get?_eq_some_iff {key : String} {t : Json} : p.get? key = some t ↔ p.Has key t := by
  have hpresent : ∀ (d : Dict Json) t, present? d key = some t ↔ d.get? key = some t ∧ t ≠ .null := by
    intro d t
    rw [present?, Option.filter_eq_some_iff, and_congr_right_iff]
    intro _
    cases t <;> simp [Json.Tree.isNull]
  have habsent : present? p.entry key = none ↔ ∀ t, p.entry.get? key = some t → t = .null := by
    simp only [Option.eq_none_iff_forall_ne_some, ne_eq, hpresent, not_and, not_not]
  rw [get?, Option.or_eq_some_iff, hpresent, hpresent, habsent]
  constructor
  · rintro (⟨h, hnull⟩ | ⟨hentry, h, hnull⟩)
    · exact .entry h hnull
    · exact .data h hnull hentry
  · rintro (⟨h, hnull⟩ | ⟨h, hnull, hentry⟩)
    · exact .inl ⟨h, hnull⟩
    · exact .inr ⟨hentry, h, hnull⟩

section Met

variable {r : Rule}

theorem Rule.met_iff_of_absent (h : p.get? r.key = none) : r.Met p ↔ r.required = false := by
  have hnone : ∀ t, ¬ p.Has r.key t := by
    intro t ht
    rw [Properties.get?_eq_some_iff.2 ht] at h
    cases h
  constructor
  · intro hmet
    by_contra hrequired
    obtain ⟨t, ht⟩ := hmet.present (Bool.not_eq_false _ ▸ hrequired)
    exact hnone t ht
  · intro hoptional
    exact ⟨fun hrequired => absurd (hoptional.symm.trans hrequired) Bool.false_ne_true,
      fun t ht => absurd ht (hnone t)⟩

theorem Rule.met_iff_of_present {t : Json} (h : p.get? r.key = some t) : r.Met p ↔ r.accepts t := by
  refine ⟨fun hmet => hmet.accepted t (Properties.get?_eq_some_iff.1 h), fun ht => ⟨fun _ => ?_, fun t' ht' => ?_⟩⟩
  · exact ⟨t, Properties.get?_eq_some_iff.1 h⟩
  · rw [Properties.get?_eq_some_iff.2 ht'] at h
    cases h
    exact ht

/-- A property is read as absent, or as what it is. -/
theorem decides_of_get? {read : Except PropertyFault α}
    (habsent : p.get? r.key = none → Decides r.key (r.required = false) read)
    (hpresent : ∀ t, p.get? r.key = some t → Decides r.key (r.accepts t) read) : Decides r.key (r.Met p) read := by
  cases h : p.get? r.key with
  | none => exact (habsent h).congr (Rule.met_iff_of_absent h).symm
  | some t => exact (hpresent t h).congr (Rule.met_iff_of_present h).symm

end Met

/-! ## Texts, keys and words -/

theorem decides_textOr (key default : String) :
    Decides key ((Rule.optional key IsText).Met p) (p.textOr key default) := by
  refine decides_of_get? (r := .optional key IsText) (fun (h : p.get? key = none) => ?_)
    (fun t (h : p.get? key = some t) => ?_)
  · rw [Properties.textOr, h]
    exact .ok rfl _
  · rw [Properties.textOr, h]
    cases t with
    | str s => exact .ok (.text s) _
    | num n => exact .ok (.number n) _
    | null | bool | arr | obj => exact .error (by rintro ⟨⟩) _

theorem isFilled_iff {s : String} : IsFilled (.str s) ↔ Text.isBlankText s = false := by
  rw [Text.isBlankText, List.all_eq_false]
  constructor
  · rintro ⟨hmem, hc⟩
    exact ⟨_, hmem, by simp [hc]⟩
  · rintro ⟨c, hmem, hc⟩
    exact .mk hmem (Bool.eq_false_iff.2 hc)

theorem decides_filled {key : String} (s : String) (reason : Reason) (a : α) :
    Decides key (IsFilled (.str s)) (if Text.isBlankText s then .error ⟨key, reason⟩ else .ok a) := by
  split
  next hblank => exact .error (fun hfilled => by simp [isFilled_iff.1 hfilled] at hblank) reason
  next hblank => exact .ok (isFilled_iff.2 (Bool.eq_false_iff.2 hblank)) a

theorem decides_requiredText (key : String) :
    Decides key ((Rule.needed key IsFilled).Met p) (p.requiredText key) := by
  refine decides_of_get? (r := .needed key IsFilled) (fun (h : p.get? key = none) => ?_)
    (fun t (h : p.get? key = some t) => ?_)
  · rw [Properties.requiredText, h]
    exact .error (by rintro ⟨⟩) _
  · rw [Properties.requiredText, h]
    cases t with
    | str s => exact decides_filled s _ _
    | null | bool | num | arr | obj => exact .error (by rintro ⟨⟩) _

theorem decides_keyOfItem (t : Json) : Decides "allowed_keys" (IsFilled t) (keyOfItem t) := by
  cases t with
  | str s => exact decides_filled s _ _
  | null | bool | num | arr | obj => exact .error (by rintro ⟨⟩) _

theorem decides_allowedKeys :
    Decides "allowed_keys" ((Rule.optional "allowed_keys" IsKeys).Met p) (allowedKeys (p.get? "allowed_keys")) := by
  refine decides_of_get? (r := .optional "allowed_keys" IsKeys) (fun (h : p.get? "allowed_keys" = none) => ?_)
    (fun t (h : p.get? "allowed_keys" = some t) => ?_)
  · rw [h]
    exact .ok rfl _
  · rw [h]
    cases t with
    | str s => exact .ok (.text s) _
    | arr items =>
      refine (Decides.mapM decides_keyOfItem items).congr ⟨.names, ?_⟩
      rintro (_ | hitems)
      exact hitems
    | null | bool | num | obj => exact .error (by rintro ⟨⟩) _

theorem decides_boolOr (key : String) (default : Bool) :
    Decides key ((Rule.optional key IsTruth).Met p) (p.boolOr key default) := by
  refine decides_of_get? (r := .optional key IsTruth) (fun (h : p.get? key = none) => ?_)
    (fun t (h : p.get? key = some t) => ?_)
  · rw [Properties.boolOr, h]
    exact .ok rfl _
  · rw [Properties.boolOr, h]
    cases t with
    | bool b => exact .ok (.value b) _
    | str s =>
      have hword : IsTruth (.str s) ↔ Text.keyword s = "true" ∨ Text.keyword s = "false" := by
        refine ⟨?_, fun h => .word (by simpa [Text.keyword] using h)⟩
        rintro (_ | h)
        simpa [Text.keyword] using h
      dsimp only
      split_ifs with htrue hfalse
      · exact .ok (hword.2 (.inl htrue)) _
      · exact .ok (hword.2 (.inr hfalse)) _
      · exact .error (fun h => (hword.1 h).elim htrue hfalse) _
    | null | num | arr | obj => exact .error (by rintro ⟨⟩) _

theorem levelOfWord?_eq_none_iff {word : String} :
    levelOfWord? word = none ↔ word ∉ ["high", "on", "true", "1", "low", "off", "false", "0"] := by
  have hsplit : ["high", "on", "true", "1", "low", "off", "false", "0"] =
      ["high", "on", "true", "1"] ++ ["low", "off", "false", "0"] := rfl
  rw [hsplit, List.mem_append, levelOfWord?]
  split_ifs with hhigh hlow
  · simp [hhigh]
  · simp [hlow]
  · simp only [hhigh, hlow, or_self, not_false_eq_true]

theorem toNat?_eq_some_iff {n : Json.Number} {k : Nat} : n.toNat? = some k ↔ n = .int k := by
  cases n with
  | real x => simp [Json.Number.toNat?]
  | int i =>
    rw [Json.Number.toNat?, Json.Number.int.injEq]
    split <;> simp <;> omega

theorem decides_level :
    Decides "state" ((Rule.optional "state" IsLevel).Met p) (level (p.get? "state")) := by
  refine decides_of_get? (r := .optional "state" IsLevel) (fun (h : p.get? "state" = none) => ?_)
    (fun t (h : p.get? "state" = some t) => ?_)
  · rw [h]
    exact .ok rfl _
  · rw [h]
    cases t with
    | bool b => exact .ok (.value b) _
    | num n =>
      rw [level]
      split
      next hzero => exact .ok (toNat?_eq_some_iff.1 hzero ▸ .number (.inl rfl)) _
      next hone => exact .ok (toNat?_eq_some_iff.1 hone ▸ .number (.inr rfl)) _
      next hzero hone =>
        refine .error (fun hlevel => ?_) _
        cases hlevel with
        | number hn =>
          rcases hn with rfl | rfl
          · exact hzero rfl
          · exact hone rfl
    | str s =>
      rw [level]
      cases hword : levelOfWord? (Text.keyword s) with
      | none =>
        refine .error (fun hlevel => ?_) _
        cases hlevel with
        | word hmem => exact levelOfWord?_eq_none_iff.1 hword hmem
      | some b =>
        refine .ok (.word ?_) b
        by_contra h
        rw [Text.keyword, levelOfWord?_eq_none_iff.2 h] at hword
        cases hword
    | null | arr | obj => exact .error (by rintro ⟨⟩) _

/-! ## Pins -/

/-- A number that was read, or none, against the limit. -/
theorem decides_limit (pin? : Option Nat) :
    Decides "pin" (∃ n, pin? = some n ∧ n ≤ 27)
      (pin?.elim (.error ⟨"pin", .notNatural⟩) .ok >>= fun pin =>
        if highestPin < pin then .error ⟨"pin", .above highestPin⟩ else .ok pin) := by
  cases pin? with
  | none => exact .error (by rintro ⟨_, h, -⟩; cases h) _
  | some pin =>
    change Decides "pin" _ (if highestPin < pin then .error ⟨"pin", .above highestPin⟩ else .ok pin)
    split
    next habove =>
      refine .error ?_ _
      rintro ⟨n, hn, hmax⟩
      cases hn
      exact absurd habove (Nat.not_lt.2 hmax)
    next hwithin => exact .ok ⟨pin, rfl, Nat.not_lt.1 hwithin⟩ pin

theorem decides_pinNumber : Decides "pin" ((Rule.needed "pin" IsPin).Met p) (pinNumber p) := by
  refine decides_of_get? (r := .needed "pin" IsPin) (fun (h : p.get? "pin" = none) => ?_)
    (fun t (h : p.get? "pin" = some t) => ?_)
  · rw [pinNumber, Properties.requiredNat, h]
    exact .error (by rintro ⟨⟩) _
  · rw [pinNumber, Properties.requiredNat, h]
    cases t with
    | num n =>
      refine (decides_limit n.toNat?).congr ⟨?_, ?_⟩
      · rintro ⟨k, hk, hmax⟩
        rw [toNat?_eq_some_iff.1 hk]
        exact .number hmax
      · intro hpin
        cases hpin with
        | number hmax => exact ⟨_, toNat?_eq_some_iff.2 rfl, hmax⟩
    | str s =>
      refine (decides_limit _).congr ⟨?_, ?_⟩
      · rintro ⟨k, hk, hmax⟩
        exact .numeral (Decimal.readNatural_eq_some_iff.1 hk).1 hmax
      · intro hpin
        cases hpin with
        | numeral hk hmax =>
          exact ⟨_, Decimal.readNatural_eq_some_iff.2 ⟨hk, hmax.trans_lt (by decide)⟩, hmax⟩
    | null | bool | arr | obj => exact .error (by rintro ⟨⟩) _

/-! ## Quantities -/

/-- The number that a value is read as. -/
def number? : Json → Option Binary64
  | .num n => some n.toReal
  | .str s => Decimal.readReal (Text.trim s).toList
  | _ => none

/-- A number that lies in the range. -/
def Range.Admits : Range → Binary64 → Prop
  | .any, _ => True
  | .nonNegative, x => x.isNegative = false
  | .positive, x => x.isPositive = true

/-- Numbers and the amounts they are nearest to lie in the same ranges. -/
theorem Range.admits_iff (range : Range) {negative : Bool} {units : Nat} {q : ℚ} (h : 0 < units ↔ tiny < q) :
    range.Admits (.finite negative units) ↔ range.Holds negative q := by
  cases range with
  | any => exact Iff.rfl
  | nonNegative =>
    rw [Admits, Holds, Binary64.isNegative, ← not_lt, ← h]
    cases negative <;> simp
  | positive =>
    rw [Admits, Holds, Binary64.isPositive, ← h]
    cases negative <;> simp

theorem isQuantity_iff {range : Range} {t : Json} (hblank : ¬ IsBlank t) :
    IsQuantity range t ↔
      ∃ negative units, number? t = some (.finite negative units) ∧ range.Admits (.finite negative units) := by
  constructor
  · rintro (h | @⟨negative, q, h, hrange⟩)
    · exact absurd h hblank
    cases h with
    | number h =>
      exact ⟨_, _, congrArg some h, (range.admits_iff Decimal.tiny_lt_units_iff.symm).2 hrange⟩
    | @decimal s _ significand e h hfinite =>
      obtain ⟨-, hhuge⟩ | ⟨units, hscaled, -, hunits⟩ := Decimal.scaled_cases negative significand e
      · exact absurd hfinite (not_lt.2 hhuge)
      · refine ⟨negative, units, ?_, (range.admits_iff hunits).2 hrange⟩
        rw [number?]
        exact Decimal.readReal_eq_finite_iff.2 ⟨_, _, h, hscaled⟩
  · rintro ⟨negative, units, h, hrange⟩
    cases t with
    | num n =>
      exact .amount (.number (Option.some.inj h)) ((range.admits_iff Decimal.tiny_lt_units_iff.symm).1 hrange)
    | str s =>
      rw [number?] at h
      obtain ⟨significand, e, hdecimal, hscaled⟩ := Decimal.readReal_eq_finite_iff.1 h
      -- A decimal that is read as a finite number is not rounded to infinity.
      obtain ⟨hinfinite, -⟩ | ⟨units', hscaled', hfinite, hunits⟩ := Decimal.scaled_cases negative significand e
      · rw [hinfinite] at hscaled
        cases hscaled
      · rw [hscaled'] at hscaled
        cases hscaled
        exact .amount (.decimal hdecimal hfinite) ((range.admits_iff hunits).1 hrange)
    | null | bool | arr | obj => cases h

theorem isBlank_iff {s : String} : IsBlank (.str s) ↔ Text.isBlankText s = true := by
  rw [Text.isBlankText, List.all_eq_true]
  refine ⟨?_, .mk⟩
  rintro ⟨h⟩
  exact h

section Quantity

variable {range : Range} {key : String} {check : Binary64 → Except PropertyFault α}
  (hcheck : ∀ x, Decides key (range.Admits x) (check x))
include hcheck

theorem decides_finite (x? : Option Binary64) :
    Decides key (∃ negative units, x? = some (.finite negative units) ∧ range.Admits (.finite negative units))
      (Properties.finite key x? >>= check) := by
  cases x? with
  | none => exact .error (by rintro ⟨_, _, h, -⟩; cases h) _
  | some x =>
    cases x with
    | nan | infinite => exact .error (by rintro ⟨_, _, h, -⟩; cases h) _
    | finite negative units =>
      refine (hcheck (.finite negative units)).congr ⟨fun h => ⟨negative, units, rfl, h⟩, ?_⟩
      rintro ⟨_, _, h, hrange⟩
      cases h
      exact hrange

/-- A number that is read and then checked. -/
theorem decides_quantity {default : Binary64} (hdefault : range.Admits default) :
    Decides key ((Rule.optional key (IsQuantity range)).Met p) (p.numberOr key default >>= check) := by
  have hread {accepted : Prop} (h : accepted) : Decides key accepted (check default) :=
    (hcheck default).congr (iff_of_true hdefault h)
  refine decides_of_get? (r := .optional key (IsQuantity range)) (fun (h : p.get? key = none) => ?_)
    (fun t (h : p.get? key = some t) => ?_)
  · rw [Properties.numberOr, h]
    exact hread rfl
  · rw [Properties.numberOr, h]
    cases t with
    | num n => exact (decides_finite hcheck _).congr (isQuantity_iff (t := .num n) (by rintro ⟨⟩)).symm
    | str s =>
      -- A blank text gives the default, which is not looked at again by the rule.
      dsimp only
      split
      next hblank => exact hread (.blank (isBlank_iff.2 hblank))
      next hblank => exact (decides_finite hcheck _).congr (isQuantity_iff (mt isBlank_iff.1 hblank)).symm
    | null | bool | arr | obj =>
      exact .error ((isQuantity_iff (by rintro ⟨⟩)).not.2 (by rintro ⟨_, _, h, -⟩; cases h)) _

end Quantity

theorem decides_numberOr (key : String) (default : Binary64) :
    Decides key ((Rule.optional key (IsQuantity .any)).Met p) (p.numberOr key default) := by
  have hbind : p.numberOr key default = p.numberOr key default >>= .ok := by
    cases p.numberOr key default <;> rfl
  rw [hbind]
  exact decides_quantity (fun x => .ok trivial x) trivial

theorem decides_nonNegativeOr (key : String) {default : Binary64} (hdefault : default.isNegative = false) :
    Decides key ((Rule.optional key (IsQuantity .nonNegative)).Met p) (p.nonNegativeOr key default) := by
  have hbind : p.nonNegativeOr key default =
      p.numberOr key default >>= fun x => if x.isNegative then .error ⟨key, .negative⟩ else .ok x := by
    rw [Properties.nonNegativeOr]
    cases p.numberOr key default <;> rfl
  have hcheck : ∀ x : Binary64, Decides key (Range.nonNegative.Admits x)
      (if x.isNegative then .error ⟨key, .negative⟩ else .ok x) := by
    intro x
    split
    next h => exact .error (by simp [Range.Admits, h]) _
    next h => exact .ok (Bool.eq_false_iff.2 h) x
  rw [hbind]
  exact decides_quantity hcheck hdefault

theorem decides_positive (key : String) (x : Binary64) : Decides key (Range.positive.Admits x) (positive key x) := by
  rw [positive]
  split
  next h => exact .ok h ()
  next h => exact .error h _

theorem isQuantity_positive_iff {n : Json.Number} :
    IsQuantity .positive (.num n) ↔ n.toReal.isFinite = true ∧ n.toReal.isPositive = true := by
  rw [isQuantity_iff (by rintro ⟨⟩), number?]
  cases n.toReal with
  | nan | infinite => simp [Binary64.isFinite]
  | finite negative units => simp [Binary64.isFinite, Range.Admits]

theorem decides_sizePair (t : Json) : Decides "size" (IsSize t) (sizePair t) := by
  unfold sizePair
  split
  next w h =>
    have hiff : IsSize (.arr [.num w, .num h]) ↔
        (w.toReal.isFinite && w.toReal.isPositive && h.toReal.isFinite && h.toReal.isPositive) = true := by
      simp only [Bool.and_eq_true, and_assoc]
      rw [← and_assoc, ← isQuantity_positive_iff, ← isQuantity_positive_iff]
      refine ⟨?_, fun hboth => .mk hboth.1 hboth.2⟩
      rintro ⟨hw, hh⟩
      exact ⟨hw, hh⟩
    split
    next hboth => exact .ok (hiff.2 hboth) _
    next hboth => exact .error (mt hiff.1 hboth) _
  next hother =>
    refine .error (fun hsize => ?_) _
    cases hsize with
    | mk => exact hother _ _ rfl
  next hother =>
    refine .error (fun hsize => ?_) _
    cases hsize with
    | mk => exact hother _ rfl

theorem decides_sizeLiteral (target : Target) :
    Decides "size" ((Rule.optional "size" IsSize).Met p) (sizeLiteral target (p.get? "size")) := by
  refine decides_of_get? (r := .optional "size" IsSize) (fun (h : p.get? "size" = none) => ?_)
    (fun t (h : p.get? "size" = some t) => ?_)
  · rw [h]
    exact .ok rfl _
  · rw [h]
    exact (decides_sizePair t).bind_pure fun pair =>
      "[" ++ target.numberLiteral pair.1 ++ ", " ++ target.numberLiteral pair.2 ++ "]"

/-! ## The built-in kinds -/

theorem isNegative_showTime : showTime.isNegative = false := by decide +kernel

theorem isPositive_textHeight : textHeight.isPositive = true := by decide +kernel

section Kinds

variable (node : Node.Resolved) (p : Properties) (target : Target)

theorem follows_textValues : Follows p textContract.rules (textValues node p target) :=
  .bind (decides_textOr "text" _).follows fun _ =>
  .bind (decides_nonNegativeOr "duration" isNegative_showTime).follows fun _ =>
  .bind (decides_numberOr "x" _).follows fun _ =>
  .bind (decides_numberOr "y" _).follows fun _ =>
  .bind_check (decides_quantity (decides_positive "height") isPositive_textHeight).follows fun _ =>
  .bind (decides_textOr "color" _).follows fun _ => .pure _

theorem follows_imageValues : Follows p imageContract.rules (imageValues node p target) :=
  .bind (decides_requiredText "image").follows fun _ =>
  .bind (decides_nonNegativeOr "duration" isNegative_showTime).follows fun _ =>
  .bind (decides_numberOr "x" _).follows fun _ =>
  .bind (decides_numberOr "y" _).follows fun _ =>
  .bind (decides_sizeLiteral target).follows fun _ => .pure _

theorem follows_keyboardValues : Follows p keyboardContract.rules (keyboardValues node p target) :=
  .bind decides_allowedKeys.follows fun _ =>
  .bind (decides_nonNegativeOr "duration" rfl).follows fun _ =>
  .bind (decides_boolOr "store_correct" _).follows fun _ =>
  .bind (decides_textOr "correct_answer" _).follows fun _ => .pure _

theorem follows_gpioValues : Follows p gpioContract.rules (gpioValues node p target) :=
  .bind decides_pinNumber.follows fun _ =>
  .bind decides_level.follows fun _ =>
  .bind (decides_nonNegativeOr "duration" rfl).follows fun _ => .pure _

end Kinds

theorem kept_of_mem_contracts : ∀ c ∈ contracts, c.Kept := by
  simp only [contracts, List.forall_mem_cons]
  exact ⟨.of_follows follows_textValues, .of_follows follows_imageValues, .of_follows follows_keyboardValues,
    .of_follows follows_gpioValues, List.forall_mem_nil _⟩

theorem exists_contract_of_filled : ∀ b ∈ filled, ∃ c ∈ contracts, c.type = b.1.type ∧ c.values = b.2 := by
  simp only [filled, builtins, List.zip_cons_cons, List.zip_nil_right, List.forall_mem_cons]
  exact ⟨⟨textContract, .head _, rfl, rfl⟩, ⟨imageContract, .tail _ (.head _), rfl, rfl⟩,
    ⟨keyboardContract, .tail _ (.tail _ (.head _)), rfl, rfl⟩,
    ⟨gpioContract, .tail _ (.tail _ (.tail _ (.head _))), rfl, rfl⟩, List.forall_mem_nil _⟩

/-- **The built-in kinds accept what their contracts say**, for both targets,
and else report the first property that is not as it must be. -/
theorem contract_of_builtin {type : String} {kind : Kind} (h : builtin.get? type = some kind) :
    ∃ c ∈ contracts, c.type = type ∧ kind.render = fillTemplate type c.values ∧ c.Kept := by
  obtain ⟨b, hb, rfl, -, hrender⟩ := get?_builtin_filled h
  obtain ⟨c, hc, htype, hvalues⟩ := exists_contract_of_filled b hb
  exact ⟨c, hc, htype, hvalues ▸ hrender, kept_of_mem_contracts c hc⟩

/-- A pin as a text, and a level in the data behind a null in the entry. -/
def trigger : Properties :=
  { entry := [("pin", .str " +07 "), ("state", .null)], data := [("state", .str "High"), ("duration", .str " ")] }

/-- A pin that does not exist, and what is no level. -/
def badTrigger : Properties := { entry := [("pin", .num (.int 28)), ("state", .arr [])], data := [] }

/-- What the contract accepts is given values, and what it does not is reported by the first key. -/
theorem contract_of_gpio :
    builtin.get? "gpio" = some gpioKind ∧
      (∃ context, gpioValues (Node.bare "a" "gpio").resolved trigger .browser = .ok context) ∧
      ∃ fault, gpioValues (Node.bare "a" "gpio").resolved badTrigger .desktop = .error fault ∧ fault.key = "pin" := by
  have hkind : builtin.get? "gpio" = some gpioKind := rfl
  obtain ⟨c, hc, htype, -, hkept⟩ := contract_of_builtin hkind
  obtain rfl : c = gpioContract := by
    simp only [contracts, List.mem_cons, List.not_mem_nil, or_false] at hc
    rcases hc with rfl | rfl | rfl | rfl
    · exact absurd htype (by decide)
    · exact absurd htype (by decide)
    · exact absurd htype (by decide)
    · rfl
  refine ⟨hkind, (hkept.accepts_iff _ _ _).2 ?_, ?_⟩
  · have hpin : IsPin (.str " +07 ") :=
      .numeral (@Decimal.IsNatural.mk ['+'] ['0', '7'] (.inr rfl) (Decimal.areDigits_iff_all.1 ⟨by decide, rfl⟩)) (by decide)
    have hlevel : IsLevel (.str "High") := .word (by decide)
    have hduration : IsQuantity .nonNegative (.str " ") := .blank (isBlank_iff.2 rfl)
    simp only [gpioContract, List.forall_mem_cons]
    exact ⟨(Rule.met_iff_of_present rfl).2 hpin, (Rule.met_iff_of_present rfl).2 hlevel,
      (Rule.met_iff_of_present rfl).2 hduration, List.forall_mem_nil _⟩
  · have hpin : ¬ (Rule.needed "pin" IsPin).Met badTrigger := by
      rw [Rule.met_iff_of_present (t := .num (.int 28)) rfl]
      intro h
      generalize ht : (.num (.int 28) : Json) = t at h
      cases h with
      | number hmax =>
        cases ht
        exact absurd hmax (by decide)
      | numeral => cases ht
    cases hread : gpioValues (Node.bare "a" "gpio").resolved badTrigger .desktop with
    | ok context => exact absurd ((hkept.accepts_iff _ _ _).1 ⟨context, hread⟩ _ (.head _)) hpin
    | error fault =>
      refine ⟨fault, rfl, ?_⟩
      have hreported := hkept.reported _ _ _ fault hread
      generalize fault.key = key at *
      cases hreported with
      | here => rfl
      | later h => exact absurd h hpin

end Component

end FlowScript
