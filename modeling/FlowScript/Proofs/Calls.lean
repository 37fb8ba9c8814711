/-
The names that a program calls. A call is a name directly before an opening
parenthesis; what comes right after a dot is a member of something and no
name of its own (`mem_calledNames_iff`). As with declarations, the definitions work on text
and on the pieces of templates alike, and `mem_called_spelled` says that
the calls of the text are those of the pieces and those of the values.
-/
import FlowScript.Proofs.Legible

namespace FlowScript

open Template (Piece Values spelled pieceLines)
open Code

section

variable {α : Type} [DecidableEq α] (alphabet : Alphabet α)

/-- Whether tokens open a parenthesis at once. -/
def opensCall : List (Token α) → Bool
  | .mark c :: _ => decide (c = alphabet.char '(')
  | _ => false

/-- The names that tokens call; `dotted` says whether they come right after a dot. -/
def called : Bool → List (Token α) → List (List α)
  | _, [] => []
  | dotted, .word w :: ts =>
    if !dotted && alphabet.isName w && opensCall alphabet ts then w :: called false ts
    else called false ts
  | _, .mark c :: ts => called (decide (c = alphabet.char '.')) ts

/-- The names that a line calls. -/
def calledNamesOf (line : List α) : List (List α) := called alphabet false (tokens alphabet.isPart line)

end

/-! ## Calls of text -/

section

variable {α : Type} [DecidableEq α] {alphabet : Alphabet α}

/-- A mark that opens no parenthesis parts the calls before it from those behind. -/
theorem called_append_mark {c : α} (hc : c ≠ alphabet.char '(') (dotted : Bool) (a b : List (Token α)) :
    called alphabet dotted (a ++ .mark c :: b) =
      called alphabet dotted a ++ called alphabet false (.mark c :: b) := by
  induction a generalizing dotted with
  | nil => rfl
  | cons t a ih =>
    cases t with
    | mark d => exact ih _
    | word w =>
      have hopens : opensCall alphabet (a ++ .mark c :: b) = opensCall alphabet a := by
        cases a with
        | nil => exact decide_eq_false hc
        | cons t a => cases t <;> rfl
      rw [List.cons_append, called, called, hopens, ih]
      split <;> rfl

theorem called_eq_nil {ts : List (Token α)} (h : Token.mark (alphabet.char '(') ∉ ts) (dotted : Bool) :
    called alphabet dotted ts = [] := by
  induction ts generalizing dotted with
  | nil => rfl
  | cons t ts ih =>
    have ih := ih fun hm => h (List.mem_cons_of_mem _ hm)
    cases t with
    | mark c => exact ih _
    | word w =>
      have hopens : opensCall alphabet ts = false := by
        cases ts with
        | nil => rfl
        | cons t ts =>
          cases t with
          | word cs => rfl
          | mark c =>
            refine decide_eq_false ?_
            rintro rfl
            exact h (List.mem_cons_of_mem _ List.mem_cons_self)
      rw [called, hopens, Bool.and_false, if_neg Bool.false_ne_true]
      exact ih false

end

theorem calledNamesOf_eq_nil {line : List Char} (h : '(' ∉ line) : calledNamesOf .text line = [] := by
  refine called_eq_nil (fun hm => h ?_) false
  rw [← @flatMap_chars_tokens _ Alphabet.text.isPart line]
  exact List.mem_flatMap.2 ⟨_, hm, List.mem_singleton.2 rfl⟩

/-! ## Calls of pieces -/

/-- Whether tokens end or go on with a mark that opens no parenthesis. -/
def parts : List (Token Piece) → Bool
  | [] => true
  | .mark (.char c) :: _ => c != '('
  | _ => false

/-- Whether the calls of tokens are told by their words and by the values of
their fields one by one. -/
def clearCalls : List (Token Piece) → Bool
  | [] => true
  | .word ps :: ts =>
    (!opensCall .pieces ts || ps.all Piece.isChar) && opensClear ts && clearCalls ts
  | .mark (.char c) :: ts => (c != '.' || opensClear ts) && clearCalls ts
  | .mark (.field _) :: ts => parts ts && clearCalls ts

variable {values : Values}

theorem opensCall_flatMap {ts : List (Token Piece)} (h : opensClear ts = true) :
    opensCall .text (ts.flatMap (Token.spelled values)) = opensCall .pieces ts := by
  cases ts with
  | nil => rfl
  | cons t ts =>
    cases t with
    | word ps => rfl
    | mark piece =>
      cases piece with
      | field f => cases h
      | char c =>
        rw [flatMap_spelled_mark]
        exact decide_eq_decide.2 (by simp [Alphabet.text, Alphabet.pieces])

theorem isName_map_char (cs : List Char) :
    Alphabet.pieces.isName (cs.map .char) = Alphabet.text.isName cs := by
  change ((cs.map Piece.char).all Piece.isPart && beginsName (cs.map .char)) =
    Identifier.isIdentifier (String.ofList cs)
  rw [Identifier.isIdentifier, String.toList_ofList]
  cases cs with
  | nil => rfl
  | cons c cs =>
    have hall : (cs.map Piece.char).all Piece.isPart = cs.all Identifier.isPart := List.all_map
    simp only [List.map_cons, List.all_cons, beginsName, hall]
    change (Identifier.isPart c && _ && Identifier.isStart c) = _
    cases hc : Identifier.isStart c with
    | false => rw [Bool.and_false, Bool.false_and]
    | true => rw [Identifier.isPart_of_isStart hc, Bool.true_and, Bool.and_true]

theorem map_char_injective {a b : List Char} (h : a.map Piece.char = b.map Piece.char) : a = b :=
  (List.map_inj_right fun _ _ he => Piece.char.inj he).1 h

/-- What is called before something is what a word and what comes after it call. -/
theorem mem_called_word {α : Type} [DecidableEq α] {alphabet : Alphabet α} {dotted : Bool} {name w : List α}
    {ts : List (Token α)} :
    name ∈ called alphabet dotted (.word w :: ts) ↔
      (dotted = false ∧ alphabet.isName w = true ∧ opensCall alphabet ts = true ∧ name = w) ∨
        name ∈ called alphabet false ts := by
  rw [called]
  split
  next h =>
    simp only [Bool.and_eq_true, Bool.not_eq_true'] at h
    rw [List.mem_cons]
    simp [h]
  next h =>
    simp only [Bool.and_eq_true, Bool.not_eq_true', not_and] at h
    refine ⟨.inr, fun hm => hm.resolve_left fun ⟨hd, hname, hopens, _⟩ => ?_⟩
    exact h ⟨hd, hname⟩ hopens

section

variable {ts : List (Token Piece)} {P : Template.Field → Prop}

theorem exists_field_word {ps : List Piece} :
    (∃ f, Token.mark (.field f) ∈ Token.word ps :: ts ∧ P f) ↔ ∃ f, Token.mark (.field f) ∈ ts ∧ P f := by
  simp

theorem exists_field_char {c : Char} :
    (∃ f, Token.mark (.field f) ∈ Token.mark (.char c) :: ts ∧ P f) ↔
      ∃ f, Token.mark (.field f) ∈ ts ∧ P f := by
  simp

theorem exists_field_field {f : Template.Field} :
    (∃ g, Token.mark (.field g) ∈ Token.mark (.field f) :: ts ∧ P g) ↔
      P f ∨ ∃ g, Token.mark (.field g) ∈ ts ∧ P g := by
  simp [or_and_right, exists_or]

end

/-- A value that is parted from what comes after it calls what it calls by itself. -/
theorem called_append_of_parts {ts : List (Token Piece)} (h : parts ts = true) (value : List Char) :
    called .text false (tokens Identifier.isPart value ++ ts.flatMap (Token.spelled values)) =
      calledNamesOf .text value ++ called .text false (ts.flatMap (Token.spelled values)) := by
  cases ts with
  | nil =>
    rw [List.flatMap_nil, List.append_nil, called, List.append_nil]
    rfl
  | cons t ts =>
    cases t with
    | word ps => cases h
    | mark piece =>
      cases piece with
      | field g => cases h
      | char c =>
        have hc : c ≠ '(' := by simpa [parts] using h
        rw [flatMap_spelled_mark]
        exact called_append_mark hc false _ _

theorem mem_called_spelled {ts : List (Token Piece)} (h : clearCalls ts = true) {dotted : Bool}
    (hd : dotted = true → opensClear ts = true) {name : List Char} :
    name ∈ called .text dotted (ts.flatMap (Token.spelled values)) ↔
      name.map .char ∈ called .pieces dotted ts ∨
        ∃ f, Token.mark (.field f) ∈ ts ∧ name ∈ calledNamesOf .text (values f.key) := by
  induction ts generalizing dotted with
  | nil => simp [called]
  | cons t ts ih =>
    cases t with
    | word ps =>
      simp only [clearCalls, Bool.and_eq_true, Bool.or_eq_true, Bool.not_eq_true'] at h
      obtain ⟨⟨hchars, hclear⟩, hrest⟩ := h
      rw [flatMap_spelled_word, mem_called_word, mem_called_word, opensCall_flatMap hclear,
        ih hrest fun _ => hclear, exists_field_word, or_assoc]
      refine or_congr_left (and_congr_right fun _ => ?_)
      -- A word that is called is made of characters, so it is the same in the text.
      cases hopens : opensCall .pieces ts with
      | false => simp
      | true =>
        have hps : ps = (spelled values ps).map .char :=
          eq_map_char (hchars.resolve_left (by simp [hopens])) rfl
        rw [hps, isName_map_char, Template.spelled_map_char]
        exact and_congr_right fun _ => and_congr_right fun _ => ⟨fun he => by rw [he], map_char_injective⟩
    | mark piece =>
      cases piece with
      | char c =>
        simp only [clearCalls, Bool.and_eq_true, Bool.or_eq_true, bne_iff_ne] at h
        have hdot : decide (Piece.char c = Alphabet.pieces.char '.') = decide (c = Alphabet.text.char '.') :=
          decide_eq_decide.2 (by simp [Alphabet.text, Alphabet.pieces])
        rw [flatMap_spelled_mark, called, called, hdot, exists_field_char]
        refine ih h.2 fun hc => h.1.resolve_left fun hne => hne ?_
        exact of_decide_eq_true hc
      | field f =>
        simp only [clearCalls, Bool.and_eq_true] at h
        have hdotted : dotted = false := by
          cases dotted with
          | false => rfl
          | true => cases hd rfl
        have hpieces : called .pieces false (.mark (.field f) :: ts) = called .pieces false ts := by
          rw [called, decide_eq_false (by simp [Alphabet.pieces])]
        rw [hdotted, List.flatMap_cons, Token.spelled, called_append_of_parts h.1, hpieces, List.mem_append,
          ih h.2 fun hd => absurd hd Bool.false_ne_true, exists_field_field, or_left_comm]

/-! ## Calls of programs -/

/-- The names that the code of a text calls. -/
def calledIn (target : Target) (cs : List Char) : List (List Char) :=
  ((code target .code cs).splitOn '\n').flatMap (calledNamesOf .text)

/-- The names that a program calls by themselves: those that stand in its code
directly before an opening parenthesis and not right after a dot. -/
def calledNames (target : Target) (source : String) : List String :=
  (calledIn target source.toList).map String.ofList

/-! ## What a call looks like -/

theorem tokens_call {name : List Char} (hname : Identifier.isIdentifier (String.ofList name) = true)
    (behind : List Char) :
    tokens Identifier.isPart (name ++ '(' :: behind) =
      .word name :: .mark '(' :: tokens Identifier.isPart behind := by
  obtain ⟨c, rest, rfl, hc, hrest⟩ := isIdentifier_iff.1 hname
  have hparts : ∀ d ∈ c :: rest, Identifier.isPart d = true :=
    List.forall_mem_cons.2 ⟨Identifier.isPart_of_isStart hc, hrest⟩
  have hopen : Identifier.isPart '(' = false := by decide
  rw [tokens_word_append (List.cons_ne_nil _ _) hparts (by simp [hopen]), tokens, hopen,
    if_neg Bool.false_ne_true]

/-- What tokens call after a mark they call whatever is before it. -/
theorem mem_called_append_mark {c : Char} {ts : List (Token Char)} {name : List Char}
    (h : name ∈ called .text (decide (c = '.')) ts) (before : List (Token Char)) (dotted : Bool) :
    name ∈ called .text dotted (before ++ .mark c :: ts) := by
  induction before generalizing dotted with
  | nil => exact h
  | cons t before ih =>
    cases t with
    | mark d => exact ih _
    | word w => exact mem_called_word.2 (.inr (ih _))

theorem exists_of_mem_called {line name : List Char} {dotted : Bool}
    (h : name ∈ called .text dotted (tokens Identifier.isPart line)) :
    Identifier.isIdentifier (String.ofList name) = true ∧
      ∃ before behind, line = before ++ (name ++ '(' :: behind) ∧
        (before = [] → dotted = false) ∧ ∀ c ∈ before.getLast?, Identifier.isPart c = false ∧ c ≠ '.' := by
  -- The line is read word by word and mark by mark.
  induction hn : line.length using Nat.strongRecOn generalizing line dotted with
  | ind n ih =>
    subst hn
    cases line with
    | nil => cases h
    | cons c cs =>
      cases hc : Identifier.isPart c with
      | false =>
        rw [tokens, hc, if_neg Bool.false_ne_true] at h
        obtain ⟨hname, before, behind, rfl, hdotted, hlast⟩ := ih _ (Nat.lt_succ_self _) h rfl
        refine ⟨hname, c :: before, behind, rfl, fun hnil => absurd hnil (List.cons_ne_nil _ _), ?_⟩
        cases before with
        | nil =>
          intro d hd
          cases hd
          exact ⟨hc, of_decide_eq_false (hdotted rfl)⟩
        | cons d before => rwa [List.getLast?_cons_cons]
      | true =>
        obtain ⟨w, rest, hsplit, hne, hw, hrest⟩ := exists_word hc cs
        rw [hsplit, tokens_word_append hne hw hrest, mem_called_word] at h
        rw [hsplit]
        rcases h with ⟨hdotted, hname, hopens, rfl⟩ | h
        · cases rest with
          | nil => cases hopens
          | cons d rest =>
            have hd := hrest d rfl
            rw [tokens, hd, if_neg Bool.false_ne_true] at hopens
            obtain rfl : d = '(' := of_decide_eq_true hopens
            exact ⟨hname, [], rest, rfl, fun _ => hdotted, by simp⟩
        · have hlt : rest.length < (c :: cs).length := by
            rw [hsplit, List.length_append]
            exact Nat.lt_add_of_pos_left (List.length_pos_iff.2 hne)
          obtain ⟨hname, before, behind, rfl, -, hlast⟩ := ih _ hlt h rfl
          cases before with
          | nil =>
            -- What comes after a word does not go on with a name.
            obtain ⟨d, more, rfl, hd, -⟩ := isIdentifier_iff.1 hname
            have hnot := hrest d rfl
            rw [Identifier.isPart_of_isStart hd] at hnot
            cases hnot
          | cons d before =>
            refine ⟨hname, w ++ d :: before, behind, by simp, by simp, ?_⟩
            simpa [List.getLast?_append] using hlast

/-- A line calls a name exactly if the name stands in it directly before an
opening parenthesis and not right after a dot or another character of words. -/
theorem mem_calledNamesOf_iff {line name : List Char} :
    name ∈ calledNamesOf .text line ↔ Identifier.isIdentifier (String.ofList name) = true ∧
      ∃ before behind, line = before ++ (name ++ '(' :: behind) ∧
        ∀ c ∈ before.getLast?, Identifier.isPart c = false ∧ c ≠ '.' := by
  constructor
  · intro h
    obtain ⟨hname, before, behind, hline, -, hlast⟩ := exists_of_mem_called h
    exact ⟨hname, before, behind, hline, hlast⟩
  · rintro ⟨hname, before, behind, rfl, hlast⟩
    have hcall : ∀ dotted, dotted = false → name ∈ called .text dotted
        (.word name :: .mark '(' :: tokens Identifier.isPart behind) :=
      fun dotted hd => mem_called_word.2 (.inl ⟨hd, hname, rfl, rfl⟩)
    rw [← tokens_call hname] at hcall
    rcases List.eq_nil_or_concat before with rfl | ⟨front, c, rfl⟩
    · exact hcall false rfl
    · rw [List.concat_eq_append] at hlast ⊢
      obtain ⟨hpart, hdot⟩ := hlast c (by simp)
      have hc := hcall (decide (c = '.')) (decide_eq_false hdot)
      have htokens : tokens Identifier.isPart (front ++ [c] ++ (name ++ '(' :: behind)) =
          tokens Identifier.isPart front ++
            .mark c :: tokens Identifier.isPart (name ++ '(' :: behind) := by
        rw [List.append_assoc, List.singleton_append, tokens_append_mark hpart, tokens, hpart,
          if_neg Bool.false_ne_true]
      change name ∈ called .text false (tokens Identifier.isPart _)
      rw [htokens]
      exact mem_called_append_mark hc _ _

/-! ## Lines -/

theorem calledNamesOf_append_line (a b : List Char) :
    calledNamesOf .text (a ++ '\n' :: b) = calledNamesOf .text a ++ calledNamesOf .text b := by
  have hmark : Alphabet.text.isPart '\n' = false := by decide
  have hline : tokens Alphabet.text.isPart ('\n' :: b) = .mark '\n' :: tokens Alphabet.text.isPart b := by
    rw [tokens, hmark, if_neg Bool.false_ne_true]
  rw [calledNamesOf, tokens_append_mark hmark, hline, called_append_mark (by decide)]
  rfl

theorem flatMap_splitOn {β : Type} {f : List Char → List β} {sep : Char}
    (hf : ∀ a b, f (a ++ sep :: b) = f a ++ f b) (cs : List Char) : (cs.splitOn sep).flatMap f = f cs := by
  induction hn : cs.length using Nat.strongRecOn generalizing cs with
  | ind n ih =>
    subst hn
    by_cases h : sep ∈ cs
    · obtain ⟨a, b, rfl⟩ := List.append_of_mem h
      rw [List.splitOn_append_cons_self, List.flatMap_append, ih a.length (by simp) a rfl,
        ih b.length (by simp; omega) b rfl, hf]
    · have hone : cs.splitOn sep = [cs] := by
        simpa using Template.splitOn_append_of_not_mem h []
      rw [hone, List.flatMap_singleton]

theorem calledIn_eq (target : Target) (cs : List Char) :
    calledIn target cs = calledNamesOf .text (code target .code cs) :=
  flatMap_splitOn calledNamesOf_append_line _

theorem mem_calledNames {target : Target} {source name : String} :
    name ∈ calledNames target source ↔ name.toList ∈ calledIn target source.toList := by
  rw [calledNames, List.mem_map]
  constructor
  · rintro ⟨cs, hcs, rfl⟩
    rwa [String.toList_ofList]
  · exact fun h => ⟨_, h, String.ofList_toList⟩

/-- A program calls a name by itself exactly if the name stands in its code
directly before an opening parenthesis and not right after a dot or another
character of words. -/
theorem mem_calledNames_iff {target : Target} {source name : String} :
    name ∈ calledNames target source ↔ Identifier.isIdentifier name = true ∧
      ∃ before behind, code target .code source.toList = before ++ (name.toList ++ '(' :: behind) ∧
        ∀ c ∈ before.getLast?, Identifier.isPart c = false ∧ c ≠ '.' := by
  rw [mem_calledNames, calledIn_eq, mem_calledNamesOf_iff, String.ofList_toList]

example : calledNames .desktop "f(x.g('h('), 1 + k (2), float('inf')) # m()" = ["f", "float"] := by
  decide

/-! ## Programs from templates -/

/-- The names that the code of pieces calls, apart from those that values call. -/
def callPieces (target : Target) (pieces : List Piece) : List (List Piece) :=
  (pieceLines (codePieces target pieces)).flatMap (calledNamesOf .pieces)

variable {target : Target}

theorem mem_tokens_field {line : List Piece} {f : Template.Field} :
    Token.mark (.field f) ∈ tokens Piece.isPart line ↔
      .field f ∈ line ∧ Role.ofKey f.key ≠ .identifier := by
  constructor
  · intro hm
    refine ⟨?_, by simpa [Piece.isPart] using isPart_of_mem_tokens hm⟩
    rw [← @flatMap_chars_tokens _ Piece.isPart line]
    exact List.mem_flatMap.2 ⟨_, hm, List.mem_singleton.2 rfl⟩
  · rintro ⟨hm, hrole⟩
    exact mem_tokens_of_mem hm (by simpa [Piece.isPart] using hrole)

/-- What the code of a template calls is what its own words call and what the
values in its code call. -/
theorem Legible.mem_calledIn {pieces : List Piece} (h : Legible target pieces)
    (hf : Fit target values pieces)
    (hc : ∀ line ∈ pieceLines (codePieces target pieces), clearCalls (tokens Piece.isPart line) = true)
    {name : List Char} :
    name ∈ calledIn target (spelled values pieces) ↔
      name.map .char ∈ callPieces target pieces ∨
        ∃ line ∈ pieceLines (codePieces target pieces), ∃ f, .field f ∈ line ∧
          Role.ofKey f.key ≠ .identifier ∧
          name ∈ calledNamesOf .text (code target .code (values f.key)) := by
  have hline : ∀ line ∈ pieceLines (codePieces target pieces),
      (name ∈ calledNamesOf .text (spelled (codeValues target values) line) ↔
        name.map .char ∈ calledNamesOf .pieces line ∨
          ∃ f, .field f ∈ line ∧ Role.ofKey f.key ≠ .identifier ∧
            name ∈ calledNamesOf .text (code target .code (values f.key))) := by
    intro line hl
    have hsub : ∀ piece ∈ line, piece ∈ codePieces target pieces := fun _ => mem_of_mem_pieceLines hl
    have ht : tokens Alphabet.text.isPart (spelled (codeValues target values) line) =
        (tokens Piece.isPart line).flatMap (Token.spelled (codeValues target values)) :=
      tokens_spelled (h.spacedLines line hl) ((h.named hf).mono hsub)
    rw [calledNamesOf, ht, mem_called_spelled (hc line hl) fun hd => absurd hd Bool.false_ne_true]
    simp only [mem_tokens_field, and_assoc]
    rfl
  rw [calledIn, code_spelled_self h.keepPieces_eq hf, Template.splitOn_spelled (h.inline hf),
    List.flatMap_map, callPieces, List.mem_flatMap, List.mem_flatMap, ← exists_or]
  refine exists_congr fun line => ?_
  rw [← and_or_left]
  exact and_congr_right (hline line)

end FlowScript
