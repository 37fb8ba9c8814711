/-
Values as expressions of a program. Whatever a node says, what is written for
it into a program is an `IsExpression`: it stays on its line, it leaves a
reader in code, and its code neither assigns nor declares anything. String
literals are such because every quote, backslash and end of line in them is
escaped; the other literals because of the few characters they are made of.
-/
import FlowScript.Component.Builtin
import FlowScript.Proofs.Code

namespace FlowScript

open Code

/-- What may be written into a line of code for a value. -/
structure IsExpression (target : Target) (cs : List Char) : Prop where
  oneLine : ∀ c ∈ cs, c ≠ '\n' ∧ c ≠ '\r'
  starts : ∃ c rest, cs = c :: rest ∧ c ≠ '='
  settled : Settled target cs
  /-- An equals sign would assign, and a word for a declaration has this letter. -/
  quiet : ∀ c ∈ code target .code cs, c ≠ '=' ∧ c ≠ 'c'

/-- The characters that mean nothing outside string literals. -/
def isAtom (c : Char) : Bool :=
  decide (c ∉ ['\n', '\r', '=', 'c', '\'', '"', Char.ofNat 0x60, '#', '/'])

theorem isAtom_iff {c : Char} :
    isAtom c = true ↔ (c ≠ '\n' ∧ c ≠ '\r') ∧ (c ≠ '=' ∧ c ≠ 'c') ∧
      (c ≠ '\'' ∧ c ≠ '"' ∧ c ≠ Char.ofNat 0x60) ∧ c ≠ '#' ∧ c ≠ '/' := by
  simp [isAtom, and_assoc]

variable {target : Target}

theorem isQuote_of_isAtom {c : Char} (h : isAtom c = true) : isQuote target c = false := by
  obtain ⟨-, -, ⟨h1, h2, h3⟩, -⟩ := isAtom_iff.1 h
  cases target <;> simp [isQuote, h1, h2, h3]

theorem isPlain_of_isAtom {c : Char} (h : isAtom c = true) : isPlain target c = true := by
  have hq := @isQuote_of_isAtom target c h
  obtain ⟨-, -, -, h4, h5⟩ := isAtom_iff.1 h
  cases target <;> simp [isPlain, lead, hq, h4, h5]

theorem all_isPlain_of_isAtom {cs : List Char} (h : cs.all isAtom = true) :
    cs.all (isPlain target) = true :=
  List.all_eq_true.2 fun c hc => isPlain_of_isAtom (List.all_eq_true.1 h c hc)

namespace IsExpression

theorem of_atoms {cs : List Char} (hne : cs ≠ []) (h : cs.all isAtom = true) :
    IsExpression target cs := by
  have hatom := fun c hc => isAtom_iff.1 (List.all_eq_true.1 h c hc)
  have hplain := @all_isPlain_of_isAtom target cs h
  obtain ⟨c, rest, rfl⟩ := List.exists_cons_of_ne_nil hne
  refine ⟨fun d hd => (hatom d hd).1, ⟨c, rest, rfl, (hatom c List.mem_cons_self).2.1.1⟩, ?_, ?_⟩
  · simpa using Settled.plain_append hplain Settled.nil
  · rw [code_plain hplain]
    exact fun d hd => (hatom d hd).2.1

theorem cons {c : Char} {cs : List Char} (hc : isAtom c = true) (h : IsExpression target cs) :
    IsExpression target (c :: cs) := by
  obtain ⟨hline, hquiet, -⟩ := isAtom_iff.1 hc
  refine ⟨List.forall_mem_cons.2 ⟨hline, h.oneLine⟩, ⟨c, cs, rfl, hquiet.1⟩, ?_, ?_⟩
  · exact Settled.plain_append (a := [c]) (by simp [isPlain_of_isAtom hc]) h.settled
  · rw [code_plain_cons (isPlain_of_isAtom hc)]
    exact List.forall_mem_cons.2 ⟨hquiet, h.quiet⟩

theorem append {a b : List Char} (ha : IsExpression target a) (hb : IsExpression target b)
    (hq : NoQuote target b) : IsExpression target (a ++ b) := by
  obtain ⟨c, rest, rfl, hc⟩ := ha.starts
  have hne : b ≠ [] := by
    obtain ⟨d, ds, rfl, -⟩ := hb.starts
    exact List.cons_ne_nil _ _
  refine ⟨?_, ⟨c, rest ++ b, rfl, hc⟩, ha.settled.append hb.settled ⟨hne, hq⟩, ?_⟩
  · intro d hd
    rcases List.mem_append.1 hd with hd | hd
    · exact ha.oneLine d hd
    · exact hb.oneLine d hd
  · rw [ha.settled b hq]
    intro d hd
    rcases List.mem_append.1 hd with hd | hd
    · exact ha.quiet d hd
    · exact hb.quiet d hd

theorem append_atoms {a b : List Char} (ha : IsExpression target a) (hne : b ≠ [])
    (hb : b.all isAtom = true) : IsExpression target (a ++ b) := by
  refine ha.append (of_atoms hne hb) ?_
  intro c hc
  exact isQuote_of_isAtom (List.all_eq_true.1 hb c (List.mem_of_mem_head? hc))

theorem atoms_append {a b : List Char} (ha : a.all isAtom = true) (hb : IsExpression target b) :
    IsExpression target (a ++ b) := by
  induction a with
  | nil => exact hb
  | cons c a ih =>
    rw [List.all_cons, Bool.and_eq_true] at ha
    exact (ih ha.2).cons ha.1

end IsExpression

/-! ## String literals -/

/-- How the characters of a string literal may be escaped: a reader that is in
the literal stays in it, and the line goes on. -/
structure Escapes (target : Target) (quote : Char) (escape : Char → List Char) : Prop where
  stays : ∀ c, after target (.inside quote) (escape c) = .inside quote
  drops : ∀ c, code target (.inside quote) (escape c) = []
  oneLine : ∀ c, ∀ d ∈ escape c, d ≠ '\n' ∧ d ≠ '\r'
  starts : ∀ c, ∃ d rest, escape c = d :: rest ∧ d ≠ quote

theorem after_inside {quote : Char} {cs : List Char} (h : ∀ c ∈ cs, c ≠ quote ∧ c ≠ '\\') :
    after target (.inside quote) cs = .inside quote ∧ code target (.inside quote) cs = [] := by
  induction cs with
  | nil => exact ⟨rfl, rfl⟩
  | cons c cs ih =>
    obtain ⟨⟨hq, hb⟩, hcs⟩ := List.forall_mem_cons.1 h
    have hn : next target (.inside quote) c = .inside quote := by simp [next, hq, hb]
    rw [after_cons, code_cons_of_drops rfl, hn]
    exact ih hcs

/-- A backslash and the character after it stay in the literal. -/
theorem after_inside_backslash {quote d : Char} {cs : List Char} (hq : quote ≠ '\\')
    (h : ∀ c ∈ cs, c ≠ quote ∧ c ≠ '\\') :
    after target (.inside quote) ('\\' :: d :: cs) = .inside quote ∧
      code target (.inside quote) ('\\' :: d :: cs) = [] := by
  have hn : next target (.inside quote) '\\' = .escaped quote := by simp [next, hq.symm]
  rw [after_cons, after_cons, code_cons_of_drops rfl, hn, code_cons_of_drops rfl]
  exact after_inside h

theorem hexDigit_isAlphanum : ∀ n < 16, (Json.hexDigit n).isAlphanum = true := by decide

theorem hexByte_isAlphanum {n : Nat} (h : n < 256) : ∀ d ∈ Json.hexByte n, d.isAlphanum = true := by
  simp only [Json.hexByte, List.forall_mem_cons]
  exact ⟨hexDigit_isAlphanum _ (by omega), hexDigit_isAlphanum _ (by omega), by simp⟩

theorem ne_of_isAlphanum {c d : Char} (h : c.isAlphanum = true) (hd : d.isAlphanum = false) : c ≠ d :=
  fun e => by rw [e, hd] at h; cases h

theorem escapes_of_cases {quote : Char} {escape : Char → List Char} (hq : quote ≠ '\\')
    (h : ∀ c, (escape c = [c] ∧ c ≠ quote ∧ c ≠ '\\' ∧ c ≠ '\n' ∧ c ≠ '\r') ∨
      ∃ d cs, escape c = '\\' :: d :: cs ∧ (d ≠ '\n' ∧ d ≠ '\r') ∧ ∀ x ∈ cs, x.isAlphanum = true)
    (hquote : quote.isAlphanum = false) : Escapes target quote escape := by
  have hmarks : ∀ {cs : List Char}, (∀ x ∈ cs, x.isAlphanum = true) → ∀ x ∈ cs, x ≠ quote ∧ x ≠ '\\' :=
    fun hcs x hx => ⟨ne_of_isAlphanum (hcs x hx) hquote, ne_of_isAlphanum (hcs x hx) (by decide)⟩
  refine ⟨fun c => ?_, fun c => ?_, fun c => ?_, fun c => ?_⟩
  · rcases h c with ⟨he, h1, h2, -⟩ | ⟨d, cs, he, -, hcs⟩
    · rw [he]; exact (after_inside (by simp [h1, h2])).1
    · rw [he]; exact (after_inside_backslash hq (hmarks hcs)).1
  · rcases h c with ⟨he, h1, h2, -⟩ | ⟨d, cs, he, -, hcs⟩
    · rw [he]; exact (after_inside (by simp [h1, h2])).2
    · rw [he]; exact (after_inside_backslash hq (hmarks hcs)).2
  · rcases h c with ⟨he, -, -, h3⟩ | ⟨d, cs, he, hd, hcs⟩
    · rw [he]; simpa using h3
    · rw [he]
      refine List.forall_mem_cons.2 ⟨by decide, List.forall_mem_cons.2 ⟨hd, fun x hx => ?_⟩⟩
      exact ⟨ne_of_isAlphanum (hcs x hx) (by decide), ne_of_isAlphanum (hcs x hx) (by decide)⟩
  · rcases h c with ⟨he, h1, -⟩ | ⟨d, cs, he, -, -⟩
    · exact ⟨c, [], he, h1⟩
    · exact ⟨'\\', d :: cs, he, hq.symm⟩

theorem escapeSingle_cases (c : Char) :
    (Target.escapeSingle c = [c] ∧ c ≠ '\'' ∧ c ≠ '\\' ∧ c ≠ '\n' ∧ c ≠ '\r') ∨
      ∃ d cs, Target.escapeSingle c = '\\' :: d :: cs ∧ (d ≠ '\n' ∧ d ≠ '\r') ∧
        ∀ x ∈ cs, x.isAlphanum = true := by
  unfold Target.escapeSingle
  split
  · exact .inr ⟨'\\', [], rfl, by decide, by simp⟩
  split
  · exact .inr ⟨'\'', [], rfl, by decide, by simp⟩
  split
  · exact .inr ⟨'n', [], rfl, by decide, by simp⟩
  split
  · exact .inr ⟨'r', [], rfl, by decide, by simp⟩
  split
  · exact .inr ⟨'t', [], rfl, by decide, by simp⟩
  split
  next h => exact .inr ⟨'x', Json.hexByte c.toNat, rfl, by decide, hexByte_isAlphanum (by omega)⟩
  next h1 h2 h3 h4 h5 h6 => exact .inl ⟨rfl, h2, h1, h3, h4⟩

theorem escapeChar_cases (c : Char) :
    (Json.escapeChar c = [c] ∧ c ≠ '"' ∧ c ≠ '\\' ∧ c ≠ '\n' ∧ c ≠ '\r') ∨
      ∃ d cs, Json.escapeChar c = '\\' :: d :: cs ∧ (d ≠ '\n' ∧ d ≠ '\r') ∧
        ∀ x ∈ cs, x.isAlphanum = true := by
  unfold Json.escapeChar
  split
  · exact .inr ⟨'"', [], rfl, by decide, by simp⟩
  split
  · exact .inr ⟨'\\', [], rfl, by decide, by simp⟩
  split
  · exact .inr ⟨'n', [], rfl, by decide, by simp⟩
  split
  · exact .inr ⟨'r', [], rfl, by decide, by simp⟩
  split
  · exact .inr ⟨'t', [], rfl, by decide, by simp⟩
  split
  · exact .inr ⟨'b', [], rfl, by decide, by simp⟩
  split
  · exact .inr ⟨'f', [], rfl, by decide, by simp⟩
  split
  next h =>
    refine .inr ⟨'u', '0' :: '0' :: Json.hexByte c.toNat, rfl, by decide, ?_⟩
    exact List.forall_mem_cons.2 ⟨by decide, List.forall_mem_cons.2
      ⟨by decide, hexByte_isAlphanum (by omega)⟩⟩
  next h1 h2 h3 h4 h5 h6 h7 h8 => exact .inl ⟨rfl, h1, h2, h3, h4⟩

theorem escapes_style (target : Target) :
    Escapes target target.style.quote target.style.escape := by
  cases target with
  | desktop => exact escapes_of_cases (by decide) escapeSingle_cases (by decide)
  | browser => exact escapes_of_cases (by decide) escapeChar_cases (by decide)

theorem Escapes.flatMap {quote : Char} {escape : Char → List Char}
    (h : Escapes target quote escape) (cs tail : List Char) :
    code target (.inside quote) (cs.flatMap escape ++ quote :: tail) = code target .code tail := by
  induction cs with
  | nil =>
    have hn : next target (.inside quote) quote = .code := by simp [next]
    rw [List.flatMap_nil, List.nil_append, code_cons_of_drops rfl, hn]
  | cons c cs ih =>
    rw [List.flatMap_cons, List.append_assoc, code_append, h.drops, h.stays, List.nil_append, ih]

/-- A reader of Python that has read a quote is in a literal, unless another quote comes. -/
theorem code_opened {quote c : Char} (hc : c ≠ quote) (cs : List Char) :
    code target (.opened quote) (c :: cs) = code target (.inside quote) (c :: cs) := by
  have hn : next target (.opened quote) c = next target (.inside quote) c := by simp [next, hc]
  rw [code_cons_of_drops rfl, code_cons_of_drops rfl, hn]

/-- Two quotes are an empty literal, unless a third one comes. -/
theorem code_emptied {quote : Char} (hq : isQuote target quote = true) {tail : List Char}
    (ht : NoQuote target tail) : code target (.emptied quote) tail = code target .code tail := by
  cases tail with
  | nil => rfl
  | cons c cs =>
    have hc : c ≠ quote := by
      rintro rfl
      have := ht c rfl
      rw [hq] at this
      cases this
    have hn : next target (.emptied quote) c = next target .code c := by simp [next, hc]
    rw [code_cons_of_keeps (by simpa [keeps] using hc), hn]
    rfl

/-- The code of a string literal is its first quote. -/
theorem code_quoted (s : String) {tail : List Char} (ht : NoQuote target tail) :
    code target .code (target.style.quoted s ++ tail) =
      target.style.quote :: code target .code tail := by
  rw [Json.Style.quoted, List.cons_append, List.append_assoc, List.singleton_append, code_code_cons]
  congr 1
  have hesc := escapes_style target
  cases target with
  | browser => exact hesc.flatMap s.toList tail
  | desktop =>
    -- The first quote may be one of three, so an empty literal is read in a way of its own.
    change code .desktop (.opened '\'') _ = _
    cases hs : s.toList with
    | nil =>
      rw [List.flatMap_nil, List.nil_append, code_cons_of_drops rfl]
      exact code_emptied (by decide) ht
    | cons c cs =>
      rw [← hesc.flatMap (c :: cs) tail, List.flatMap_cons]
      obtain ⟨d, rest, he, hd⟩ := hesc.starts c
      rw [he, List.cons_append, List.cons_append]
      exact code_opened hd _

example : code .desktop .code "f('a # \\' b') # c".toList = "f(') #".toList := by decide

theorem isExpression_quoted (s : String) : IsExpression target (target.style.quoted s) := by
  have hself : code target .code (target.style.quoted s) = [target.style.quote] := by
    simpa using @code_quoted target s [] (by simp [NoQuote])
  refine ⟨?_, ⟨target.style.quote, _, rfl, by cases target <;> decide⟩, ?_, ?_⟩
  · have hline : ∀ c, c = target.style.quote → c ≠ '\n' ∧ c ≠ '\r' := by
      rintro c rfl
      cases target <;> decide
    intro c hc
    rcases List.mem_cons.1 hc with hc | hc
    · exact hline c hc
    rcases List.mem_append.1 hc with hc | hc
    · obtain ⟨d, -, hd⟩ := List.mem_flatMap.1 hc
      exact (escapes_style target).oneLine d c hd
    · exact hline c (List.mem_singleton.1 hc)
  · intro tail ht
    rw [code_quoted s ht, hself, List.singleton_append]
  · rw [hself, List.forall_mem_singleton]
    cases target <;> decide

theorem isExpression_textLiteral (s : String) : IsExpression target (target.textLiteral s).toList := by
  rw [Target.textLiteral, String.toList_ofList]
  exact isExpression_quoted s

/-! ## Numbers -/

/-- The characters of numbers: digits, the marks between them, and the letters
of the words for what is not finite. -/
def isNumeric (c : Char) : Bool := c.isDigit || ['.', '-', 'e', 'N', 'a', 'i', 'n', 'f'].contains c

theorem isAtom_of_isNumeric {c : Char} (h : isNumeric c = true) : isAtom c = true := by
  have hne : ∀ d : Char, isNumeric d = false → c ≠ d := by
    rintro d hd rfl
    rw [hd] at h
    cases h
  refine isAtom_iff.2 ⟨⟨?_, ?_⟩, ⟨?_, ?_⟩, ⟨?_, ?_, ?_⟩, ?_, ?_⟩ <;> exact hne _ (by decide)

/-- The text of a number: it does not begin with its point. -/
structure IsNumeral (cs : List Char) : Prop where
  starts : ∃ c rest, cs = c :: rest ∧ c ≠ '.'
  numeric : ∀ c ∈ cs, isNumeric c = true

theorem IsNumeral.cons {c : Char} {cs : List Char} (hc : isNumeric c = true) (hpoint : c ≠ '.')
    (h : ∀ d ∈ cs, isNumeric d = true) : IsNumeral (c :: cs) :=
  ⟨⟨c, cs, rfl, hpoint⟩, List.forall_mem_cons.2 ⟨hc, h⟩⟩

theorem IsNumeral.isExpression {cs : List Char} (h : IsNumeral cs) : IsExpression target cs := by
  obtain ⟨c, rest, rfl, -⟩ := h.starts
  exact .of_atoms (List.cons_ne_nil _ _)
    (List.all_eq_true.2 fun d hd => isAtom_of_isNumeric (h.numeric d hd))

theorem isNumeric_of_isDigit {c : Char} (h : c.isDigit = true) : isNumeric c = true := by
  rw [isNumeric, h, Bool.true_or]

theorem ne_point_of_isDigit {c : Char} (h : c.isDigit = true) : c ≠ '.' := by
  rintro rfl
  cases h

theorem isDigit_of_mem_digits {n : Nat} {c : Char} (h : c ∈ Decimal.digits n) : c.isDigit = true :=
  Nat.isDigit_of_mem_toDigits (by decide) (by decide) h

theorem mem_of_mem_dropEnd {p : Char → Bool} {c : Char} {cs : List Char}
    (h : c ∈ Text.dropEnd p cs) : c ∈ cs := by
  rw [Text.dropEnd, List.mem_reverse] at h
  exact List.mem_reverse.1 ((List.dropWhile_suffix p).mem h)

theorem isNumeral_digits (n : Nat) : IsNumeral (Decimal.digits n) := by
  obtain ⟨c, rest, h⟩ := List.exists_cons_of_ne_nil (Nat.toDigits_ne_nil (n := n) (b := 10))
  have hd : ∀ d ∈ c :: rest, d.isDigit = true := fun d hd => isDigit_of_mem_digits (h ▸ hd)
  rw [Decimal.digits, h]
  exact .cons (isNumeric_of_isDigit (hd c List.mem_cons_self))
    (ne_point_of_isDigit (hd c List.mem_cons_self))
    fun d hm => isNumeric_of_isDigit (hd d (List.mem_cons_of_mem _ hm))

theorem isNumeric_integerText {n : Int} : ∀ c ∈ Decimal.integerText n, isNumeric c = true := by
  rw [Decimal.integerText]
  split
  · exact List.forall_mem_cons.2 ⟨by decide, (isNumeral_digits _).numeric⟩
  · exact (isNumeral_digits _).numeric

theorem isNumeric_zeros (n : Nat) : ∀ c ∈ List.replicate n '0', isNumeric c = true := by
  intro c hc
  rw [List.eq_of_mem_replicate hc]
  decide

/-- A positional number begins with a zero or with the first of its digits. -/
theorem positional_starts (ds : List Char) (leading : Int) :
    (∃ rest, Decimal.positional ds leading = '0' :: rest) ∨
      ∃ d ds' rest, ds = d :: ds' ∧ Decimal.positional ds leading = d :: rest := by
  rw [Decimal.positional]
  split
  · exact .inl ⟨_, rfl⟩
  cases ds with
  | nil => exact .inl ⟨_, rfl⟩
  | cons d ds' =>
    refine .inr ⟨d, ds', ?_⟩
    dsimp only
    split
    · exact ⟨_, rfl, rfl⟩
    · exact ⟨_, rfl, rfl⟩

theorem isNumeric_positional {ds : List Char} (hd : ∀ d ∈ ds, isNumeric d = true) (leading : Int) :
    ∀ c ∈ Decimal.positional ds leading, isNumeric c = true := by
  intro c hc
  simp only [Decimal.positional] at hc
  split at hc
  · simp only [List.cons_append, List.mem_cons, List.mem_append] at hc
    rcases hc with rfl | rfl | hc | hc
    · decide
    · decide
    · exact isNumeric_zeros _ c hc
    · exact hd c hc
  split at hc
  · simp only [List.mem_append, List.mem_cons, List.not_mem_nil, or_false] at hc
    rcases hc with (hc | hc) | rfl | rfl
    · exact hd c hc
    · exact isNumeric_zeros _ c hc
    · decide
    · decide
  · simp only [List.mem_append, List.mem_cons] at hc
    rcases hc with hc | rfl | hc
    · exact hd c (List.mem_of_mem_take hc)
    · decide
    · exact hd c (List.mem_of_mem_drop hc)

theorem isNumeral_positional {ds : List Char} (hd : ∀ d ∈ ds, d.isDigit = true) (leading : Int) :
    IsNumeral (Decimal.positional ds leading) := by
  refine ⟨?_, isNumeric_positional (fun d hm => isNumeric_of_isDigit (hd d hm)) leading⟩
  rcases positional_starts ds leading with ⟨rest, h⟩ | ⟨d, ds', rest, rfl, h⟩
  · exact ⟨_, _, h, by decide⟩
  · exact ⟨_, _, h, ne_point_of_isDigit (hd d List.mem_cons_self)⟩

theorem exponential_eq (ds : List Char) (leading : Int) :
    Target.numberLayout.exponential ds leading =
      (if ds.length ≤ 1 then ds else ds.take 1 ++ '.' :: ds.drop 1) ++
        'e' :: Decimal.integerText leading := by
  simp [Decimal.Notation.exponential, Target.numberLayout]

theorem isNumeral_exponential {ds : List Char} (hd : ∀ d ∈ ds, d.isDigit = true) (leading : Int) :
    IsNumeral (Target.numberLayout.exponential ds leading) := by
  have hexponent : ∀ c ∈ 'e' :: Decimal.integerText leading, isNumeric c = true :=
    List.forall_mem_cons.2 ⟨by decide, isNumeric_integerText⟩
  rw [exponential_eq]
  cases ds with
  | nil => exact .cons (by decide) (by decide) isNumeric_integerText
  | cons d ds =>
    obtain ⟨hdigit, hds⟩ := List.forall_mem_cons.1 hd
    have hmantissa : ∃ rest, (if (d :: ds).length ≤ 1 then d :: ds
        else (d :: ds).take 1 ++ '.' :: (d :: ds).drop 1) = d :: rest ∧
        ∀ c ∈ rest, isNumeric c = true := by
      split
      · exact ⟨ds, rfl, fun c hc => isNumeric_of_isDigit (hds c hc)⟩
      · refine ⟨'.' :: ds, rfl, List.forall_mem_cons.2 ⟨by decide, ?_⟩⟩
        exact fun c hc => isNumeric_of_isDigit (hds c hc)
    obtain ⟨rest, hm, hrest⟩ := hmantissa
    rw [hm, List.cons_append]
    refine .cons (isNumeric_of_isDigit hdigit) (ne_point_of_isDigit hdigit) fun c hc => ?_
    rcases List.mem_append.1 hc with hc | hc
    · exact hrest c hc
    · exact hexponent c hc

theorem isNumeral_scaled (decimal : Nat) (e : Int) :
    IsNumeral (Target.numberLayout.scaled decimal e) := by
  have hd : ∀ d ∈ Text.dropEnd (· == '0') (Decimal.digits decimal), d.isDigit = true :=
    fun d hm => isDigit_of_mem_digits (mem_of_mem_dropEnd hm)
  dsimp only [Decimal.Notation.scaled]
  split
  · exact isNumeral_positional hd _
  · exact isNumeral_exponential hd _

theorem isNumeral_magnitude (units : Nat) : IsNumeral (Target.numberLayout.magnitude units) := by
  unfold Decimal.Notation.magnitude
  generalize Decimal.shortest _ units = nearest
  exact isNumeral_scaled nearest.1 nearest.2

theorem isNumeral_sign (s : Bool) {cs : List Char} (h : IsNumeral cs) :
    IsNumeral ((if s then ['-'] else []) ++ cs) := by
  cases s with
  | false => exact h
  | true => exact .cons (by decide) (by decide) h.numeric

theorem isNumeral_text (x : Binary64) : IsNumeral (Target.numberLayout.text x) := by
  cases x with
  | nan => exact .cons (by decide) (by decide) (List.all_eq_true.1 (by decide : "aN".toList.all _ = true))
  | infinite s =>
    exact isNumeral_sign s
      (.cons (by decide) (by decide) (List.all_eq_true.1 (by decide : "nf".toList.all _ = true)))
  | finite s units =>
    have hm := isNumeral_magnitude units
    rw [Decimal.Notation.text]
    generalize Target.numberLayout.magnitude units = cs at hm
    refine isNumeral_sign s ?_
    split
    · exact .cons (by decide) (by decide) (List.all_eq_true.1 (by decide : ".0".toList.all _ = true))
    · exact hm

theorem isNumeral_dropPoint {cs : List Char} (h : IsNumeral cs) : IsNumeral (Target.dropPoint cs) := by
  rw [Target.dropPoint]
  split
  next hs =>
    obtain ⟨c, rest, rfl, hc⟩ := h.starts
    obtain ⟨front, hfront⟩ := List.isSuffixOf_iff_suffix.1 hs
    cases front with
    | nil => cases hfront; exact absurd rfl hc
    | cons d front =>
      have htake : (c :: rest).take ((c :: rest).length - 2) = d :: front := by
        rw [← hfront, List.length_append]
        exact List.take_left' rfl
      rw [htake]
      rw [List.cons_append, List.cons.injEq] at hfront
      refine ⟨⟨d, front, rfl, hfront.1 ▸ hc⟩, fun x hx => h.numeric x ?_⟩
      rw [← hfront.1, ← hfront.2]
      rcases List.mem_cons.1 hx with rfl | hx
      · exact List.mem_cons_self
      · exact List.mem_cons_of_mem _ (List.mem_append_left _ hx)
  next => exact h

theorem isExpression_numberLiteral (x : Binary64) :
    IsExpression target (target.numberLiteral x).toList := by
  have ht := isNumeral_text x
  unfold Target.numberLiteral
  generalize Target.numberLayout.text x = cs at ht
  cases target with
  | desktop => rw [String.toList_ofList]; exact ht.isExpression
  | browser => rw [String.toList_ofList]; exact (isNumeral_dropPoint ht).isExpression

theorem isExpression_toString (n : Nat) : IsExpression target (toString n).toList := by
  rw [Nat.toString_eq_ofList_toDigits, String.toList_ofList]
  exact (isNumeral_digits n).isExpression

/-! ## Words and lists -/

theorem isExpression_boolLiteral (b : Bool) : IsExpression target (target.boolLiteral b).toList := by
  cases target <;> cases b <;> exact .of_atoms (by decide) (by decide)

theorem isExpression_noneLiteral : IsExpression target target.noneLiteral.toList := by
  cases target <;> exact .of_atoms (by decide) (by decide)

theorem isExpression_foreverLiteral :
    IsExpression target (Component.foreverLiteral target).toList := by
  cases target with
  | browser => exact .of_atoms (by decide) (by decide)
  | desktop =>
    have h : IsExpression .desktop ("float(".toList ++ (Target.style .desktop).quoted "inf") :=
      .atoms_append (by decide) (isExpression_quoted "inf")
    exact h.append_atoms (b := [')']) (by decide) (by decide)

theorem isExpression_waitLiteral (duration : Binary64) :
    IsExpression target (Component.waitLiteral target duration).toList := by
  rw [Component.waitLiteral]
  split
  · exact isExpression_numberLiteral duration
  · exact isExpression_foreverLiteral

theorem noQuote_comma (items : List Char) : NoQuote target (target.style.comma ++ items) := by
  intro c hc
  cases target <;> cases hc <;> decide

theorem isExpression_writeItems {keys : List String} (hne : keys ≠ []) :
    IsExpression target (target.style.writeItems Json.Number.token (keys.map .str)) := by
  induction keys with
  | nil => exact absurd rfl hne
  | cons key keys ih =>
    cases keys with
    | nil => exact isExpression_quoted key
    | cons other keys =>
      have hcomma : target.style.comma.all isAtom = true := by cases target <;> decide
      have hrest := IsExpression.atoms_append hcomma (ih (List.cons_ne_nil _ _))
      exact (isExpression_quoted key).append hrest (noQuote_comma _)

theorem isExpression_keysLiteral (keys : List String) :
    IsExpression target (Component.keysLiteral target keys).toList := by
  rw [Component.keysLiteral]
  split
  next => exact isExpression_noneLiteral
  next h =>
    have hne : keys ≠ [] := fun e => h (List.isEmpty_iff.2 e)
    rw [Target.literal, String.toList_ofList]
    exact ((isExpression_writeItems hne).append_atoms (b := [']']) (by decide) (by decide)).cons
      (by decide)

theorem isExpression_sizePair (w h : Binary64) :
    IsExpression target
      ("[" ++ target.numberLiteral w ++ ", " ++ target.numberLiteral h ++ "]").toList := by
  have hsecond : IsExpression target (", ".toList ++ (target.numberLiteral h).toList) :=
    .atoms_append (by decide) (isExpression_numberLiteral h)
  have hpair := ((isExpression_numberLiteral w).append hsecond ?_).append_atoms (b := [']'])
    (by decide) (by decide)
  · have hbrackets : "[".toList = ['['] ∧ "]".toList = [']'] := ⟨rfl, rfl⟩
    simp only [String.toList_append, hbrackets, List.append_assoc, List.cons_append, List.nil_append]
    simpa only [List.append_assoc] using hpair.cons (c := '[') (by decide)
  · intro c hc
    cases hc
    cases target <;> decide

end FlowScript
