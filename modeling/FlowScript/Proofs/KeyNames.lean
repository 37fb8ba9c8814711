/-
The names of keys, in one text and one by one. A text lists names if they
stand in it in order, each between any number of quotes, with commas and
blanks between them; such a text and the list of the names are read alike.
What is read from any text are names that could have been listed, and there
are none only where nothing but quotes stands between the separators, so that
any key counts (`allowedKeys_listed`).
-/
import FlowScript.Component.Response
import FlowScript.Proofs.Results
import Mathlib.Data.List.DropRight

namespace FlowScript

namespace Text

/-! ## Stripping and splitting -/

variable {p : Char → Bool} {cs : List Char}

/-- A list that neither begins nor ends with what satisfies `p`. -/
structure Bare (p : Char → Bool) (cs : List Char) : Prop where
  first : ∀ c ∈ cs.head?, p c = false
  last : ∀ c ∈ cs.getLast?, p c = false

theorem Bare.of_forall (h : ∀ c ∈ cs, p c = false) : Bare p cs :=
  ⟨fun c hc => h c (List.mem_of_mem_head? hc), fun c hc => h c (List.mem_of_mem_getLast? hc)⟩

theorem mem_of_mem_strip {c : Char} (h : c ∈ strip p cs) : c ∈ cs := by
  rw [strip, dropEnd, List.mem_reverse] at h
  have hkept := (List.dropWhile_sublist p).subset h
  exact (List.dropWhile_sublist p).subset (List.mem_reverse.1 hkept)

theorem dropWhile_of_first (h : ∀ c ∈ cs.head?, p c = false) : cs.dropWhile p = cs := by
  cases cs with
  | nil => rfl
  | cons c cs => simp [h c rfl]

theorem first_dropWhile (p : Char → Bool) (cs : List Char) : ∀ c ∈ (cs.dropWhile p).head?, p c = false := by
  intro c hc
  have hnot := List.head?_dropWhile_not p cs
  rw [Option.mem_def] at hc
  simpa [hc] using hnot

theorem dropEnd_of_last (h : ∀ c ∈ cs.getLast?, p c = false) : dropEnd p cs = cs := by
  rw [dropEnd, dropWhile_of_first (by simpa using h), List.reverse_reverse]

theorem bare_strip (p : Char → Bool) (cs : List Char) : Bare p (strip p cs) := by
  constructor
  · intro c hc
    obtain ⟨rest, hrest⟩ : strip p cs <+: cs.dropWhile p := List.rdropWhile_prefix p _
    apply first_dropWhile p cs
    rw [← hrest]
    exact List.mem_head?_append_of_mem_head? hc
  · intro c hc
    rw [strip, dropEnd, List.getLast?_reverse] at hc
    exact first_dropWhile p _ c hc

/-- What is stripped from a list that is bare is what was put around it. -/
theorem strip_between {before after : List Char} (hbare : Bare p cs) (hne : cs ≠ [])
    (hbefore : ∀ c ∈ before, p c = true) (hafter : ∀ c ∈ after, p c = true) :
    strip p (before ++ cs ++ after) = cs := by
  have hfirst : ∀ c ∈ (cs ++ after).head?, p c = false := by
    rw [List.head?_append_of_ne_nil _ hne]
    exact hbare.first
  have hlast : (cs ++ after).reverse.dropWhile p = cs.reverse := by
    rw [List.reverse_append, List.dropWhile_append_of_pos (by simpa using hafter)]
    exact dropWhile_of_first (by simpa using hbare.last)
  rw [strip, List.append_assoc, List.dropWhile_append_of_pos hbefore, dropWhile_of_first hfirst, dropEnd, hlast,
    List.reverse_reverse]

theorem strip_of_bare (h : Bare p cs) : strip p cs = cs := by
  rw [strip, dropWhile_of_first h.first, dropEnd_of_last h.last]

theorem strip_eq_nil_iff : strip p cs = [] ↔ ∀ c ∈ cs, p c = true := by
  constructor
  · intro h
    have hkept : cs.dropWhile p = [] := by
      have hall : ∀ c ∈ cs.dropWhile p, p c = true := List.rdropWhile_eq_nil_iff.1 h
      have hfirst := first_dropWhile p cs
      cases hd : cs.dropWhile p with
      | nil => rfl
      | cons c rest =>
        rw [hd] at hall hfirst
        have hc := hfirst c rfl
        rw [hall c List.mem_cons_self] at hc
        cases hc
    exact List.dropWhile_eq_nil_iff.1 hkept
  · intro h
    rw [strip, List.dropWhile_eq_nil_iff.2 h]
    rfl

/-- The pieces of a text are what it has besides separators. -/
theorem flatten_splitOnP (p : Char → Bool) (cs : List Char) :
    (cs.splitOnP p).flatten = cs.filter (fun c => !p c) := by
  induction cs with
  | nil => rfl
  | cons c cs ih =>
    rw [List.splitOnP_cons_eq_if_modifyHead]
    by_cases hc : p c = true
    · simp [hc, ih]
    · cases hpieces : cs.splitOnP p with
      | nil => exact absurd hpieces (List.splitOnP_ne_nil p cs)
      | cons piece pieces =>
        rw [hpieces] at ih
        simp [hc, ← ih]

end Text

namespace Component

/-! ## Listing names -/

/-- The name of a key: a text without separators that has no quotes of its own around it. -/
structure IsKeyName (name : String) : Prop where
  ne_empty : name ≠ ""
  whole : ∀ c ∈ name.toList, separatesKeys c = false
  bare : Text.Bare isKeyQuote name.toList

/-- A run of separators. -/
def IsGap (cs : List Char) : Prop := ∀ c ∈ cs, separatesKeys c = true

instance : DecidablePred IsGap := fun cs => decidable_of_iff (cs.all separatesKeys = true) List.all_eq_true

/-- A name between any number of quotes. -/
inductive Quoted (name : String) : List Char → Prop
  | mk {opening closing} (hopen : ∀ c ∈ opening, isKeyQuote c = true) (hclose : ∀ c ∈ closing, isKeyQuote c = true) :
      Quoted name (opening ++ name.toList ++ closing)

/-- Names in order, each after a gap, and a gap at the end. -/
inductive ListedOn : List String → List Char → Prop
  | nil {gap} (hgap : IsGap gap) : ListedOn [] gap
  | cons {gap name word names rest} (hgap : IsGap gap) (hne : gap ≠ []) (hword : Quoted name word)
      (h : ListedOn names rest) : ListedOn (name :: names) (gap ++ (word ++ rest))

/-- Names in order, with gaps between them and perhaps around them. -/
inductive Listed : List String → List Char → Prop
  | nil {gap} (hgap : IsGap gap) : Listed [] gap
  | cons {gap name word names rest} (hgap : IsGap gap) (hword : Quoted name word) (h : ListedOn names rest) :
      Listed (name :: names) (gap ++ (word ++ rest))

/-- The names of keys in a text, as lists of characters. -/
def namesIn (cs : List Char) : List (List Char) :=
  ((cs.splitOnP separatesKeys).map (Text.strip isKeyQuote)).filter (!·.isEmpty)

theorem keysOfText_eq (s : String) : keysOfText s = (namesIn s.toList).map String.ofList := rfl

theorem namesIn_nil : namesIn [] = [] := rfl

theorem namesIn_append_separator {c : Char} (hc : separatesKeys c = true) (x y : List Char) :
    namesIn (x ++ c :: y) = namesIn x ++ namesIn y := by
  rw [namesIn, List.splitOnP_append_cons _ _ hc, List.map_append, List.filter_append]
  rfl

theorem namesIn_gap {gap : List Char} (h : IsGap gap) (cs : List Char) : namesIn (gap ++ cs) = namesIn cs := by
  induction gap with
  | nil => rfl
  | cons c gap ih =>
    have hc := namesIn_append_separator (h c List.mem_cons_self) [] (gap ++ cs)
    rw [namesIn_nil, List.nil_append, List.nil_append, ih fun d hd => h d (List.mem_cons_of_mem _ hd)] at hc
    exact hc

/-- Quotes separate nothing. -/
theorem separatesKeys_of_isKeyQuote {c : Char} (h : isKeyQuote c = true) : separatesKeys c = false := by
  simp only [isKeyQuote, Bool.or_eq_true, beq_iff_eq] at h
  rcases h with rfl | rfl <;> decide

theorem namesIn_quoted {name : String} {word : List Char} (hname : IsKeyName name) (hword : Quoted name word) :
    namesIn word = [name.toList] := by
  obtain @⟨opening, closing, hopen, hclose⟩ := hword
  have hwhole : ∀ c ∈ opening ++ name.toList ++ closing, separatesKeys c = false := by
    intro c hc
    simp only [List.mem_append] at hc
    rcases hc with (hc | hc) | hc
    · exact separatesKeys_of_isKeyQuote (hopen c hc)
    · exact hname.whole c hc
    · exact separatesKeys_of_isKeyQuote (hclose c hc)
  have hne : name.toList ≠ [] := by simpa using hname.ne_empty
  rw [namesIn, List.splitOnP_eq_singleton hwhole, List.map_singleton,
    Text.strip_between hname.bare hne hopen hclose]
  simp [hne]

/-- What is listed further on begins with a separator, so it does not go on with a word before it. -/
theorem ListedOn.namesIn_append {names : List String} {rest : List Char} (h : ListedOn names rest)
    (word : List Char) : namesIn (word ++ rest) = namesIn word ++ namesIn rest := by
  have hsplit : ∀ gap tail : List Char, IsGap gap → gap ≠ [] →
      namesIn (word ++ (gap ++ tail)) = namesIn word ++ namesIn (gap ++ tail) := by
    intro gap tail hgap hne
    cases gap with
    | nil => exact absurd rfl hne
    | cons c gap =>
      have hc := hgap c List.mem_cons_self
      have htail := namesIn_append_separator hc [] (gap ++ tail)
      rw [List.nil_append, namesIn_nil, List.nil_append] at htail
      rw [List.cons_append, namesIn_append_separator hc, htail]
  cases h with
  | @nil gap hgap =>
    by_cases hne : rest = []
    · simp [hne, namesIn_nil]
    · simpa using hsplit rest [] hgap hne
  | cons hgap hne hword h => exact hsplit _ _ hgap hne

theorem ListedOn.namesIn_eq {names : List String} {rest : List Char} (h : ListedOn names rest)
    (hnames : ∀ name ∈ names, IsKeyName name) : namesIn rest = names.map String.toList := by
  induction h with
  | nil hgap => simpa [namesIn_nil] using namesIn_gap hgap []
  | cons hgap hne hword h ih =>
    obtain ⟨hname, hnames⟩ := List.forall_mem_cons.1 hnames
    rw [namesIn_gap hgap, h.namesIn_append, namesIn_quoted hname hword, ih hnames]
    rfl

theorem Listed.namesIn_eq {names : List String} {cs : List Char} (h : Listed names cs)
    (hnames : ∀ name ∈ names, IsKeyName name) : namesIn cs = names.map String.toList := by
  cases h with
  | nil hgap => simpa [namesIn_nil] using namesIn_gap hgap []
  | cons hgap hword h =>
    obtain ⟨hname, hnames⟩ := List.forall_mem_cons.1 hnames
    rw [namesIn_gap hgap, h.namesIn_append, namesIn_quoted hname hword, h.namesIn_eq hnames]
    rfl

/-- The names that a text lists are the names that are read from it. -/
theorem Listed.keysOfText_eq {names : List String} {s : String} (h : Listed names s.toList)
    (hnames : ∀ name ∈ names, IsKeyName name) : keysOfText s = names := by
  rw [Component.keysOfText_eq, h.namesIn_eq hnames, List.map_map]
  simp [Function.comp_def]

/-! ## What is read -/

theorem isKeyName_of_mem_keysOfText {s name : String} (h : name ∈ keysOfText s) : IsKeyName name := by
  rw [keysOfText_eq, namesIn] at h
  obtain ⟨cs, hcs, rfl⟩ := List.mem_map.1 h
  obtain ⟨hmem, hne⟩ := List.mem_filter.1 hcs
  obtain ⟨piece, hpiece, rfl⟩ := List.mem_map.1 hmem
  refine ⟨?_, fun c hc => ?_, ?_⟩
  · simpa [← String.toList_eq_nil_iff] using hne
  · rw [String.toList_ofList] at hc
    have hflat := List.mem_flatten.2 ⟨piece, hpiece, Text.mem_of_mem_strip hc⟩
    rw [Text.flatten_splitOnP, List.mem_filter] at hflat
    simpa using hflat.2
  · rw [String.toList_ofList]
    exact Text.bare_strip isKeyQuote piece

theorem keysOfText_eq_nil_iff {s : String} :
    keysOfText s = [] ↔ ∀ piece ∈ s.toList.splitOnP separatesKeys, ∀ c ∈ piece, isKeyQuote c = true := by
  simp only [keysOfText_eq, namesIn, List.map_eq_nil_iff, List.filter_eq_nil_iff, List.forall_mem_map,
    Bool.not_eq_true', Bool.not_eq_false, List.isEmpty_iff, Text.strip_eq_nil_iff]

theorem keyOfItem_of_isKeyName {name : String} (h : IsKeyName name) : keyOfItem (.str name) = .ok name := by
  have hne : name.toList ≠ [] := by simpa using h.ne_empty
  have hblank : ∀ c ∈ name.toList, Text.isBlank c = false := by
    intro c hc
    have hsep := h.whole c hc
    rw [separatesKeys, Bool.or_eq_false_iff] at hsep
    exact hsep.2
  have hfilled : Text.isBlankText name = false := by
    obtain ⟨c, hc⟩ := List.exists_mem_of_ne_nil _ hne
    exact List.all_eq_false.2 ⟨c, hc, by simp [hblank c hc]⟩
  have htrim : Text.trim name = name := by
    rw [Text.trim, Text.strip_of_bare (.of_forall hblank), String.ofList_toList]
  simp [keyOfItem, hfilled, htrim]

theorem mapM_keyOfItem {names : List String} (h : ∀ name ∈ names, IsKeyName name) :
    (names.map .str).mapM keyOfItem = .ok names := by
  have hread : ∀ name ∈ names, (keyOfItem ∘ .str) name = .ok (id name) :=
    fun name hname => keyOfItem_of_isKeyName (h name hname)
  rw [List.mapM_map, mapM_eq_ok hread, List.map_id]

/-- The keys that count, as they are written into the program. -/
theorem get?_keyboardValues {node : Node.Resolved} {p : Properties} {target : Target} {context : Template.Context}
    (h : keyboardValues node p target = .ok context) :
    ∃ keys, allowedKeys (p.get? "allowed_keys") = .ok keys ∧
      context.get? "allowed_keys" = some (keysLiteral target keys) := by
  simp only [keyboardValues, bind_eq_ok_iff] at h
  obtain ⟨keys, hkeys, duration, -, storeCorrect, -, correctAnswer, -, hcontext⟩ := h
  rw [← Except.ok.inj hcontext]
  exact ⟨keys, hkeys, by simp [Dict.insertAll, Dict.get?_insert_of_ne]⟩

/-- **One text lists keys as the list of their names does.** Names between any
number of quotes, with commas and blanks between them, are read as the names
in order. Whatever text is given, what is read are names that could have been
listed; there are none just where every piece is nothing but quotes, and then
the program lets any key count. -/
theorem allowedKeys_listed :
    (∀ names s, (∀ name ∈ names, IsKeyName name) → Listed names s.toList →
      allowedKeys (some (.str s)) = .ok names ∧ allowedKeys (some (.arr (names.map .str))) = .ok names) ∧
    ∀ s, ∃ names, allowedKeys (some (.str s)) = .ok names ∧ (∀ name ∈ names, IsKeyName name) ∧
      (names = [] ↔ ∀ piece ∈ s.toList.splitOnP separatesKeys, ∀ c ∈ piece, isKeyQuote c = true) ∧
      ∀ node p target context, p.get? "allowed_keys" = some (.str s) → keyboardValues node p target = .ok context →
        context.get? "allowed_keys" =
          some (if names = [] then target.noneLiteral else target.literal (.arr (names.map .str))) := by
  constructor
  · intro names s hnames hlisted
    exact ⟨congrArg Except.ok (hlisted.keysOfText_eq hnames), mapM_keyOfItem hnames⟩
  · intro s
    refine ⟨keysOfText s, rfl, fun name => isKeyName_of_mem_keysOfText, keysOfText_eq_nil_iff, ?_⟩
    intro node p target context hgiven hvalues
    obtain ⟨keys, hkeys, hcontext⟩ := get?_keyboardValues hvalues
    rw [hgiven] at hkeys
    cases hkeys
    simpa [keysLiteral] using hcontext

/-- Quotes of either kind, a gap of several separators, and quotes that stand alone. -/
theorem allowedKeys_listed_quoted :
    Listed ["left", "right"] ", 'left\",,right''\t".toList ∧
      allowedKeys (some (.str ", 'left\",,right''\t")) = .ok ["left", "right"] ∧
      allowedKeys (some (.arr [.str "left", .str "right"])) = .ok ["left", "right"] ∧
      ∃ context, keyboardValues (Node.bare "a" "keyboard").resolved
          { entry := [("allowed_keys", .str "'' ,\"")], data := [] } .desktop = .ok context ∧
        context.get? "allowed_keys" = some "None" := by
  obtain ⟨hlists, hreads⟩ := allowedKeys_listed
  have hplain : ∀ name ∈ ["left", "right"],
      name ≠ "" ∧ (name.toList.all fun c => !separatesKeys c && !isKeyQuote c) = true := by decide
  have hnames : ∀ name ∈ ["left", "right"], IsKeyName name := by
    intro name hname
    obtain ⟨hne, hchars⟩ := hplain name hname
    simp only [List.all_eq_true, Bool.and_eq_true, Bool.not_eq_true'] at hchars
    exact ⟨hne, fun c hc => (hchars c hc).1, .of_forall fun c hc => (hchars c hc).2⟩
  have hleft : Quoted "left" "'left\"".toList :=
    @Quoted.mk "left" ['\''] ['"'] (by simp [isKeyQuote]) (by simp [isKeyQuote])
  have hright : Quoted "right" "right''".toList :=
    @Quoted.mk "right" [] ['\'', '\''] (by simp [isKeyQuote]) (by simp [isKeyQuote])
  have hstart : IsGap [',', ' '] := by decide
  have hmiddle : IsGap [',', ','] := by decide
  have hend : IsGap ['\t'] := by decide
  have hlisted : Listed ["left", "right"] ", 'left\",,right''\t".toList :=
    .cons hstart hleft (.cons hmiddle (by decide) hright (.nil hend))
  obtain ⟨htext, hitems⟩ := hlists _ _ hnames hlisted
  refine ⟨hlisted, htext, hitems, ?_⟩
  obtain ⟨names, hread, -, -, hwritten⟩ := hreads "'' ,\""
  have hquotes : names = [] := Except.ok.inj (hread.symm.trans rfl)
  have hcontext := hwritten (Node.bare "a" "keyboard").resolved
    { entry := [("allowed_keys", .str "'' ,\"")], data := [] } .desktop _ rfl rfl
  rw [hquotes, if_pos rfl] at hcontext
  exact ⟨_, rfl, hcontext⟩

end Component

end FlowScript
