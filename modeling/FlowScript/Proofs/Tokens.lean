/-
The names that a line of a program declares. A line is cut into words, the
longest runs of characters of identifiers, and single other characters.
Python declares a name by `NAME = ` and JavaScript by `const NAME = `. The
definitions work on text and on the pieces of templates alike, and
`declared_spelled` says when what is found in the pieces is what will be
found in the text.
-/
import FlowScript.Proofs.Reading

namespace FlowScript

/-- A word, or a single character that stands between words. -/
inductive Token (α : Type) where
  | word (cs : List α)
  | mark (c : α)
deriving DecidableEq, Repr

namespace Token

variable {α : Type}

def chars : Token α → List α
  | word cs => cs
  | mark c => [c]

/-- A character of a word before tokens. -/
def attach (c : α) : List (Token α) → List (Token α)
  | word cs :: ts => word (c :: cs) :: ts
  | ts => word [c] :: ts

end Token

open Token (attach)

/-- The tokens of a line, where `isPart` says what belongs to words. -/
def tokens {α : Type} (isPart : α → Bool) : List α → List (Token α)
  | [] => []
  | c :: cs => if isPart c then attach c (tokens isPart cs) else .mark c :: tokens isPart cs

/-- What a form asks for in turn. -/
inductive Form where
  | word (cs : List Char)
  | name
  | mark (c : Char)
deriving DecidableEq, Repr

/-- How a name is declared. -/
def Target.declaration : Target → List Form
  | .desktop => [.name, .mark ' ', .mark '=', .mark ' ']
  | .browser => [.word "const".toList, .mark ' ', .name, .mark ' ', .mark '=', .mark ' ']

/-- What tokens are made of: how characters stand in them, and which words are names. -/
structure Alphabet (α : Type) where
  char : Char → α
  isPart : α → Bool
  isName : List α → Bool

/-- The characters of a program. -/
def Alphabet.text : Alphabet Char :=
  { char := id, isPart := Identifier.isPart, isName := fun cs => Identifier.isIdentifier (String.ofList cs) }

section

variable {α : Type} [DecidableEq α] (alphabet : Alphabet α)

/-- The names at the front of tokens of some form. -/
def names : List Form → List (Token α) → Option (List (List α))
  | [], _ => some []
  | .word w :: forms, .word cs :: ts => if cs = w.map alphabet.char then names forms ts else none
  | .name :: forms, .word cs :: ts =>
    if alphabet.isName cs then (names forms ts).map (cs :: ·) else none
  | .mark c :: forms, .mark d :: ts => if d = alphabet.char c then names forms ts else none
  | _, _ => none

/-- The names that tokens declare anywhere. -/
def namesAnywhere (forms : List Form) : List (Token α) → List (List α)
  | [] => []
  | t :: ts => (names alphabet forms (t :: ts)).getD [] ++ namesAnywhere forms ts

/-- Whether a token indents what comes after it. -/
def isIndent (t : Token α) : Bool :=
  decide (t = .mark (alphabet.char ' ') ∨ t = .mark (alphabet.char '\t'))

/-- The names that a line declares at its very beginning. -/
def declaredFirst (target : Target) (line : List α) : List (List α) :=
  (names alphabet target.declaration (tokens alphabet.isPart line)).getD []

/-- The names that a line declares: in Python after its indentation, in
JavaScript anywhere. -/
def declared (target : Target) (line : List α) : List (List α) :=
  let ts := tokens alphabet.isPart line
  match target with
  | .desktop => (names alphabet target.declaration (ts.dropWhile (isIndent alphabet))).getD []
  | .browser => namesAnywhere alphabet target.declaration ts

end

/-! ## Tokens of text -/

section

variable {α : Type} {p : α → Bool}

theorem flatMap_chars_attach (c : α) (ts : List (Token α)) :
    (attach c ts).flatMap Token.chars = c :: ts.flatMap Token.chars := by
  unfold attach
  split <;> rfl

theorem flatMap_chars_tokens (cs : List α) : (tokens p cs).flatMap Token.chars = cs := by
  induction cs with
  | nil => rfl
  | cons c cs ih =>
    rw [tokens]
    split
    · rw [flatMap_chars_attach, ih]
    · rw [List.flatMap_cons, ih]; rfl

theorem mem_of_mem_attach {c d : α} {ts : List (Token α)} (h : Token.mark c ∈ attach d ts) :
    Token.mark c ∈ ts := by
  cases ts with
  | nil => exact (List.mem_cons.1 h).resolve_left nofun
  | cons t ts =>
    cases t with
    | word cs => exact List.mem_cons_of_mem _ ((List.mem_cons.1 h).resolve_left nofun)
    | mark e => exact (List.mem_cons.1 h).resolve_left nofun

theorem mem_attach {c d : α} {ts : List (Token α)} (h : Token.mark c ∈ ts) :
    Token.mark c ∈ attach d ts := by
  cases ts with
  | nil => cases h
  | cons t ts =>
    cases t with
    | word cs =>
      rcases List.mem_cons.1 h with h | h
      · cases h
      · exact List.mem_cons_of_mem _ h
    | mark e => exact List.mem_cons_of_mem _ h

theorem isPart_of_mem_tokens {c : α} {cs : List α} (h : Token.mark c ∈ tokens p cs) : p c = false := by
  induction cs with
  | nil => cases h
  | cons d cs ih =>
    rw [tokens] at h
    split at h
    · exact ih (mem_of_mem_attach h)
    next hd =>
      rcases List.mem_cons.1 h with h | h
      · cases h
        exact Bool.eq_false_iff.2 hd
      · exact ih h

theorem mem_tokens_of_mem {c : α} {cs : List α} (h : c ∈ cs) (hc : p c = false) :
    Token.mark c ∈ tokens p cs := by
  induction cs with
  | nil => cases h
  | cons d cs ih =>
    rw [tokens]
    rcases List.mem_cons.1 h with rfl | h
    · rw [if_neg (by simp [hc])]
      exact List.mem_cons_self
    · split
      · exact mem_attach (ih h)
      · exact List.mem_cons_of_mem _ (ih h)

/-- What comes after a mark is cut by itself. -/
theorem tokens_append_mark {c : α} (hc : p c = false) (a b : List α) :
    tokens p (a ++ c :: b) = tokens p a ++ tokens p (c :: b) := by
  have hmark : tokens p (c :: b) = .mark c :: tokens p b := by simp [tokens, hc]
  induction a with
  | nil => rfl
  | cons d a ih =>
    rw [List.cons_append, tokens, tokens, ih, hmark]
    split
    · cases h : tokens p a with
      | nil => rfl
      | cons t ts => cases t <;> rfl
    · rfl

/-- The characters of a word before tokens. -/
def attachAll (w : List α) (ts : List (Token α)) : List (Token α) := w.foldr attach ts

theorem tokens_part_append {w : List α} (hw : ∀ c ∈ w, p c = true) (b : List α) :
    tokens p (w ++ b) = attachAll w (tokens p b) := by
  induction w with
  | nil => rfl
  | cons c w ih =>
    obtain ⟨hc, hw⟩ := List.forall_mem_cons.1 hw
    rw [List.cons_append, tokens, if_pos hc, ih hw]
    rfl

theorem attachAll_word (w cs : List α) (ts : List (Token α)) :
    attachAll w (.word cs :: ts) = .word (w ++ cs) :: ts := by
  induction w with
  | nil => rfl
  | cons c w ih =>
    rw [attachAll, List.foldr_cons]
    exact congrArg (attach c) ih

theorem attachAll_not_word {w : List α} (hw : w ≠ []) {ts : List (Token α)}
    (ht : ∀ cs rest, ts ≠ .word cs :: rest) : attachAll w ts = .word w :: ts := by
  obtain ⟨front, c, rfl⟩ := (List.eq_nil_or_concat w).resolve_left hw
  rw [List.concat_eq_append]
  have hc : attach c ts = .word [c] :: ts := by
    cases ts with
    | nil => rfl
    | cons t ts =>
      cases t with
      | word cs => exact absurd rfl (ht cs ts)
      | mark d => rfl
  rw [attachAll, List.foldr_append, List.foldr_cons, List.foldr_nil, hc]
  exact attachAll_word front [c] ts

/-- A longest run of characters of words is one word. -/
theorem tokens_word_append {w rest : List α} (hne : w ≠ [])
    (hw : ∀ c ∈ w, p c = true) (hrest : ∀ c ∈ rest.head?, p c = false) :
    tokens p (w ++ rest) = .word w :: tokens p rest := by
  rw [tokens_part_append hw]
  refine attachAll_not_word hne fun cs ts h => ?_
  cases rest with
  | nil => cases h
  | cons c rest =>
    rw [tokens, if_neg (by simp [hrest c rfl])] at h
    cases h

theorem exists_word {c : α} (hc : p c = true) (cs : List α) :
    ∃ w rest, c :: cs = w ++ rest ∧ w ≠ [] ∧ (∀ d ∈ w, p d = true) ∧ ∀ d ∈ rest.head?, p d = false := by
  refine ⟨(c :: cs).takeWhile p, (c :: cs).dropWhile p, List.takeWhile_append_dropWhile.symm,
    by simp [hc], List.all_eq_true.1 List.all_takeWhile, fun d hd => ?_⟩
  have h := List.head?_dropWhile_not p (c :: cs)
  rw [Option.mem_def.1 hd] at h
  exact h

end

/-! ## Tokens of pieces -/

open Template (Piece Values spelled)

/-- Whether a piece belongs to words. -/
def Template.Piece.isPart : Piece → Bool
  | .char c => Identifier.isPart c
  | .field f => Role.ofKey f.key == .identifier

/-- Whether a piece is a character between words. -/
def Template.Piece.isMark : Piece → Bool
  | .char c => !Identifier.isPart c
  | .field _ => false

/-- Whether a piece may become any tokens. -/
def Template.Piece.isOpaque : Piece → Bool
  | .char _ => false
  | .field f => Role.ofKey f.key != .identifier

def Template.Piece.isChar : Piece → Bool
  | .char _ => true
  | .field _ => false

/-- Whether a word of pieces does not begin with a digit. -/
def beginsName : List Piece → Bool
  | [] => false
  | .char c :: _ => Identifier.isStart c
  | .field _ :: _ => true

/-- The pieces of a template. -/
def Alphabet.pieces : Alphabet Piece :=
  { char := .char, isPart := Piece.isPart, isName := fun ps => ps.all Piece.isPart && beginsName ps }

variable {target : Target} {values : Values}

/-- The tokens that a token of pieces becomes. -/
def Token.spelled (values : Values) : Token Piece → List (Token Char)
  | .word ps => [.word (Template.spelled values ps)]
  | .mark (.char c) => [.mark c]
  | .mark (.field f) => tokens Identifier.isPart (values f.key)

@[simp] theorem flatMap_spelled_word (ps : List Piece) (ts : List (Token Piece)) :
    (Token.word ps :: ts).flatMap (Token.spelled values) =
      .word (spelled values ps) :: ts.flatMap (Token.spelled values) := rfl

@[simp] theorem flatMap_spelled_mark (c : Char) (ts : List (Token Piece)) :
    (Token.mark (.char c) :: ts).flatMap (Token.spelled values) =
      .mark c :: ts.flatMap (Token.spelled values) := rfl

/-- Values by which the names in a line can be told: identifiers are such, and
no expression goes on with an equals sign before it. -/
structure Named (values : Values) (pieces : List Piece) : Prop where
  identifier : ∀ f, Piece.field f ∈ pieces → Role.ofKey f.key = .identifier →
    Identifier.isIdentifier (String.ofList (values f.key)) = true
  expression : ∀ f, Piece.field f ∈ pieces → Role.ofKey f.key = .expression →
    ∃ c rest, values f.key = c :: rest ∧ c ≠ '='

theorem Named.mono {a b : List Piece} (h : Named values b) (hsub : ∀ p ∈ a, p ∈ b) : Named values a :=
  ⟨fun f hf => h.identifier f (hsub _ hf), fun f hf => h.expression f (hsub _ hf)⟩

theorem Named.tail {piece : Piece} {pieces : List Piece} (h : Named values (piece :: pieces)) :
    Named values pieces := h.mono fun _ => List.mem_cons_of_mem _

theorem Named.of_append_left {a b : List Piece} (h : Named values (a ++ b)) : Named values a :=
  h.mono fun _ => List.mem_append_left _

theorem Named.of_append_right {a b : List Piece} (h : Named values (a ++ b)) : Named values b :=
  h.mono fun _ => List.mem_append_right _

/-- Every field that may become any tokens stands between marks. -/
def spaced : List Piece → Bool
  | a :: b :: pieces =>
    (!a.isOpaque || b.isMark) && (!b.isOpaque || a.isMark) && spaced (b :: pieces)
  | _ => true

theorem spaced_tail {piece : Piece} {pieces : List Piece} (h : spaced (piece :: pieces) = true) :
    spaced pieces = true := by
  cases pieces with
  | nil => rfl
  | cons b pieces =>
    simp only [spaced, Bool.and_eq_true] at h
    exact h.2

/-- Tokens that do not begin with a field between words. -/
def opensClear : List (Token Piece) → Bool
  | .mark (.field _) :: _ => false
  | _ => true

theorem opensClear_tokens {piece : Piece} {pieces : List Piece} (hp : piece.isPart = true)
    (hs : spaced (piece :: pieces) = true) : opensClear (tokens Piece.isPart pieces) = true := by
  cases pieces with
  | nil => rfl
  | cons b pieces =>
    rw [tokens]
    split
    · unfold attach
      split <;> rfl
    next hb =>
      cases b with
      | char c => rfl
      | field f =>
        have hmark : piece.isMark = true := by
          simp only [spaced, Bool.and_eq_true, Bool.or_eq_true, Bool.not_eq_true'] at hs
          exact hs.1.2.resolve_left (by simpa [Piece.isOpaque, Piece.isPart] using hb)
        cases piece with
        | char c =>
          simp only [Piece.isMark, Bool.not_eq_true'] at hmark
          rw [Piece.isPart, hmark] at hp
          cases hp
        | field g => cases hmark

theorem flatMap_attach {piece : Piece} {ts : List (Token Piece)} (hne : piece.spelled values ≠ [])
    (ht : opensClear ts = true) :
    (attach piece ts).flatMap (Token.spelled values) =
      attachAll (piece.spelled values) (ts.flatMap (Token.spelled values)) := by
  cases ts with
  | nil =>
    rw [List.flatMap_nil, attachAll_not_word hne (by simp)]
    exact congrArg (fun cs => [Token.word cs]) (List.append_nil _)
  | cons t ts =>
    cases t with
    | word ps =>
      change [Token.word (piece.spelled values ++ spelled values ps)] ++ _ =
        attachAll _ (Token.word (spelled values ps) :: _)
      rw [attachAll_word]
      rfl
    | mark other =>
      cases other with
      | char c =>
        rw [List.flatMap_cons, Token.spelled, List.singleton_append,
          attachAll_not_word hne (by simp)]
        exact congrArg (fun cs => Token.word cs :: _) (List.append_nil _)
      | field f => cases ht

/-- The tokens of what pieces spell are what the tokens of the pieces spell. -/
theorem tokens_spelled {pieces : List Piece} (hs : spaced pieces = true) (hn : Named values pieces) :
    tokens Identifier.isPart (spelled values pieces) =
      (tokens Piece.isPart pieces).flatMap (Token.spelled values) := by
  induction pieces with
  | nil => rfl
  | cons piece pieces ih =>
    have ih := ih (spaced_tail hs) hn.tail
    rw [tokens]
    split
    next hpart =>
      -- A word may go on beyond the piece, so what the piece spells is attached to the tokens after it.
      have hne : piece.spelled values ≠ [] ∧ ∀ c ∈ piece.spelled values, Identifier.isPart c = true := by
        cases piece with
        | char c => exact ⟨List.cons_ne_nil _ _, List.forall_mem_singleton.2 hpart⟩
        | field f =>
          have hid := hn.identifier f List.mem_cons_self (by simpa [Piece.isPart] using hpart)
          refine ⟨?_, isPart_of_isIdentifier hid⟩
          obtain ⟨c, rest, he, -⟩ := isIdentifier_iff.1 hid
          rw [Piece.spelled, he]
          exact List.cons_ne_nil _ _
      rw [flatMap_attach hne.1 (opensClear_tokens hpart hs), ← ih]
      exact tokens_part_append hne.2 _
    next hpart =>
      cases piece with
      | char c =>
        have hc : Identifier.isPart c = false := Bool.eq_false_iff.2 hpart
        rw [Template.spelled_char, tokens, if_neg (by simp [hc]), ih]
        rfl
      | field f =>
        have hopaque : (Piece.field f).isOpaque = true := by simpa [Piece.isOpaque, Piece.isPart] using hpart
        rw [Template.spelled_field, List.flatMap_cons, ← ih]
        cases pieces with
        | nil => simp [Token.spelled, tokens]
        | cons b pieces =>
          simp only [spaced, hopaque, Bool.and_eq_true, Bool.or_eq_true, Bool.not_true,
            Bool.false_eq_true, false_or] at hs
          cases b with
          | char c => exact tokens_append_mark (by simpa [Piece.isMark] using hs.1.1) _ _
          | field g => cases hs.1.1

/-! ## Names in pieces -/

/-- Whether tokens of pieces cannot have some form at their front, whatever the values are. -/
def misses : List Form → List (Token Piece) → Bool
  | [], _ => false
  | _ :: _, [] => true
  | form :: _, .mark (.field f) :: _ => form == .mark '=' && Role.ofKey f.key == .expression
  | .word w :: forms, .word ps :: ts =>
    ps.all Piece.isChar && ps != w.map .char || misses forms ts
  | .name :: forms, .word ps :: ts => !beginsName ps || misses forms ts
  | .mark c :: forms, .mark (.char d) :: ts => c != d || misses forms ts
  | .mark _ :: _, .word _ :: _ => true
  | .word _ :: _, .mark (.char _) :: _ => true
  | .name :: _, .mark (.char _) :: _ => true

/-- Whether the names at the front of tokens are the same for all values. -/
def settles (forms : List Form) (ts : List (Token Piece)) : Bool :=
  (names .pieces forms ts).isSome || misses forms ts

theorem isIdentifier_spelled {ps : List Piece} (h : Alphabet.pieces.isName ps = true)
    (hn : Named values ps) : Identifier.isIdentifier (String.ofList (spelled values ps)) = true := by
  change (ps.all Piece.isPart && beginsName ps) = true at h
  rw [Bool.and_eq_true, List.all_eq_true] at h
  obtain ⟨hparts, hbegins⟩ := h
  have hall : ∀ c ∈ spelled values ps, Identifier.isPart c = true := by
    intro c hc
    obtain ⟨piece, hpiece, hc⟩ := List.mem_flatMap.1 hc
    have hpart := hparts piece hpiece
    cases piece with
    | char d => exact List.mem_singleton.1 hc ▸ hpart
    | field f =>
      have hrole : Role.ofKey f.key = .identifier := by simpa [Piece.isPart] using hpart
      exact isPart_of_isIdentifier (hn.identifier f hpiece hrole) c hc
  cases ps with
  | nil => cases hbegins
  | cons piece ps =>
    cases piece with
    | char c =>
      refine isIdentifier_iff.2 ⟨c, _, rfl, hbegins, fun d hd => hall d (List.mem_cons_of_mem _ hd)⟩
    | field f =>
      have hrole := hparts _ List.mem_cons_self
      obtain ⟨c, rest, he, hc, -⟩ :=
        isIdentifier_iff.1 (hn.identifier f List.mem_cons_self (by simpa [Piece.isPart] using hrole))
      rw [Template.spelled_field, he] at hall ⊢
      exact isIdentifier_iff.2 ⟨c, rest ++ spelled values ps, rfl, hc,
        fun d hd => hall d (List.mem_cons_of_mem _ hd)⟩

theorem names_spelled {forms : List Form} {ts : List (Token Piece)} {found : List (List Piece)}
    (h : names .pieces forms ts = some found) (hn : Named values (ts.flatMap Token.chars)) :
    names .text forms (ts.flatMap (Token.spelled values)) = some (found.map (spelled values)) := by
  induction forms generalizing ts found with
  | nil =>
    rw [names] at h ⊢
    cases h
    rfl
  | cons form forms ih =>
    cases ts with
    | nil => cases form <;> cases h
    | cons t ts =>
      have ih := fun {found} h => @ih ts found h hn.of_append_right
      cases form with
      | word w =>
        cases t with
        | mark piece => cases h
        | word ps =>
          rw [names] at h
          split at h
          next hps =>
            have hw : spelled values ps = w.map Alphabet.text.char := by
              rw [hps]
              exact (Template.spelled_map_char values w).trans (List.map_id w).symm
            rw [flatMap_spelled_word, names, if_pos hw]
            exact ih h
          next => cases h
      | name =>
        cases t with
        | mark piece => cases h
        | word ps =>
          rw [names] at h
          split at h
          next hps =>
            obtain ⟨rest, hrest, rfl⟩ := Option.map_eq_some_iff.1 h
            have hid : Alphabet.text.isName (spelled values ps) = true :=
              isIdentifier_spelled hps hn.of_append_left
            rw [flatMap_spelled_word, names, if_pos hid, ih hrest]
            rfl
          next => cases h
      | mark c =>
        cases t with
        | word ps => cases h
        | mark piece =>
          rw [names] at h
          split at h
          next hp =>
            subst hp
            have hc : c = Alphabet.text.char c := rfl
            have hmark : Alphabet.pieces.char c = .char c := rfl
            rw [hmark, flatMap_spelled_mark, names, if_pos hc]
            exact ih h
          next => cases h

theorem eq_map_char {ps : List Piece} {cs : List Char} (h : ps.all Piece.isChar = true)
    (hs : spelled values ps = cs) : ps = cs.map .char := by
  subst hs
  induction ps with
  | nil => rfl
  | cons piece ps ih =>
    rw [List.all_cons, Bool.and_eq_true] at h
    cases piece with
    | char c => exact congrArg (Piece.char c :: ·) (ih h.2)
    | field f => cases h.1

theorem beginsName_of_isIdentifier {ps : List Piece}
    (h : Identifier.isIdentifier (String.ofList (spelled values ps)) = true) : beginsName ps = true := by
  obtain ⟨c, rest, he, hc, -⟩ := isIdentifier_iff.1 h
  cases ps with
  | nil => cases he
  | cons piece ps =>
    cases piece with
    | char d => cases he; exact hc
    | field f => rfl

/-- An expression does not go on as an equals sign. -/
theorem names_tokens_expression {c : Char} (hc : c ≠ '=') (cs : List Char) (forms : List Form)
    (rest : List (Token Char)) :
    names .text (.mark '=' :: forms) (tokens Identifier.isPart (c :: cs) ++ rest) = none := by
  rw [tokens]
  split
  · unfold attach
    split <;> rfl
  · have hne : c ≠ Alphabet.text.char '=' := hc
    rw [List.cons_append, names, if_neg hne]

theorem names_spelled_of_misses {forms : List Form} {ts : List (Token Piece)}
    (h : misses forms ts = true) (hn : Named values (ts.flatMap Token.chars)) :
    names .text forms (ts.flatMap (Token.spelled values)) = none := by
  -- A token that a form asks for may still be met; then the forms after it are missed.
  induction forms generalizing ts with
  | nil => cases h
  | cons form forms ih =>
    cases ts with
    | nil => cases form <;> rfl
    | cons t ts =>
      have ih := fun h => @ih ts h hn.of_append_right
      cases t with
      | word ps =>
        rw [flatMap_spelled_word]
        cases form with
        | mark c => rfl
        | word w =>
          rw [names]
          split
          next hw =>
            rw [misses, Bool.or_eq_true] at h
            refine ih (h.resolve_left fun hps => ?_)
            rw [Bool.and_eq_true, bne_iff_ne] at hps
            exact hps.2 (eq_map_char hps.1 (hw.trans (List.map_id w)))
          next => rfl
        | name =>
          rw [names]
          split
          next hid =>
            rw [misses, Bool.or_eq_true, Bool.not_eq_true'] at h
            rw [ih (h.resolve_left fun hps => ?_)]
            · rfl
            · rw [beginsName_of_isIdentifier hid] at hps
              cases hps
          next => rfl
      | mark piece =>
        cases piece with
        | field f =>
          rw [misses, Bool.and_eq_true, beq_iff_eq, beq_iff_eq] at h
          obtain ⟨c, cs, he, hc⟩ := hn.expression f (.head _) h.2
          rw [List.flatMap_cons, Token.spelled, he, h.1]
          exact names_tokens_expression hc cs forms _
        | char d =>
          rw [flatMap_spelled_mark]
          cases form with
          | word w => rfl
          | name => rfl
          | mark c =>
            rw [names]
            split
            next hd =>
              rw [misses, Bool.or_eq_true, bne_iff_ne] at h
              exact ih (h.resolve_left fun hne => hne hd.symm)
            next => rfl

theorem names_flatMap {forms : List Form} {ts : List (Token Piece)} (h : settles forms ts = true)
    (hn : Named values (ts.flatMap Token.chars)) :
    (names .text forms (ts.flatMap (Token.spelled values))).getD [] =
      ((names .pieces forms ts).getD []).map (spelled values) := by
  rw [settles, Bool.or_eq_true, Option.isSome_iff_exists] at h
  cases hfound : names .pieces forms ts with
  | some found => rw [names_spelled hfound hn]; rfl
  | none =>
    rw [names_spelled_of_misses (h.resolve_left (by simp [hfound])) hn]
    rfl

/-- Whether the names at the front of all tails of tokens are the same for all
values. A tail that begins with a field between words is passed over. -/
def settlesAnywhere (forms : List Form) : List (Token Piece) → Bool
  | [] => true
  | t :: ts => (!opensClear [t] || settles forms (t :: ts)) && settlesAnywhere forms ts

/-- Whether the names that a line of pieces declares are the same for all values. -/
def settlesLine (target : Target) (line : List Piece) : Bool :=
  let ts := tokens Piece.isPart line
  match target with
  | .desktop =>
    opensClear (ts.dropWhile (isIndent .pieces)) &&
      settles target.declaration (ts.dropWhile (isIndent .pieces))
  | .browser => settlesAnywhere target.declaration ts

theorem dropWhile_isIndent {ts : List (Token Piece)}
    (h : opensClear (ts.dropWhile (isIndent .pieces)) = true) :
    (ts.flatMap (Token.spelled values)).dropWhile (isIndent .text) =
      (ts.dropWhile (isIndent .pieces)).flatMap (Token.spelled values) := by
  induction ts with
  | nil => rfl
  | cons t ts ih =>
    cases t with
    | word ps => rfl
    | mark piece =>
      cases piece with
      | field f => cases h
      | char c =>
        have hindent : isIndent .pieces (.mark (Piece.char c)) = isIndent .text (.mark c) := by
          simp [isIndent, Alphabet.pieces, Alphabet.text]
        rw [flatMap_spelled_mark]
        cases hc : isIndent .text (.mark c) with
        | true =>
          rw [List.dropWhile_cons_of_pos hc, List.dropWhile_cons_of_pos (hindent.trans hc)]
          rw [List.dropWhile_cons_of_pos (hindent.trans hc)] at h
          exact ih h
        | false =>
          rw [List.dropWhile_cons_of_neg (by simp [hc]),
            List.dropWhile_cons_of_neg (by simp [hindent, hc])]
          rfl

/-- Tokens that are not the first word of a form declare nothing. -/
theorem namesAnywhere_append {w : List Char} {forms : List Form} {ts : List (Token Char)}
    (h : Token.word w ∉ ts) (rest : List (Token Char)) :
    namesAnywhere .text (.word w :: forms) (ts ++ rest) = namesAnywhere .text (.word w :: forms) rest := by
  induction ts with
  | nil => rfl
  | cons t ts ih =>
    have hfirst : ∀ tail, names .text (.word w :: forms) (t :: tail) = none := by
      intro tail
      cases t with
      | mark c => rfl
      | word cs =>
        have hne : cs ≠ w.map Alphabet.text.char := by
          rintro rfl
          exact h (by simp [Alphabet.text])
        rw [names, if_neg hne]
    rw [List.cons_append, namesAnywhere, hfirst, ih fun hm => h (List.mem_cons_of_mem _ hm)]
    rfl

theorem namesAnywhere_flatMap {w : List Char} {forms : List Form} {ts : List (Token Piece)}
    (h : settlesAnywhere (.word w :: forms) ts = true) (hn : Named values (ts.flatMap Token.chars))
    (hq : ∀ f, Token.mark (.field f) ∈ ts → Token.word w ∉ tokens Identifier.isPart (values f.key)) :
    namesAnywhere .text (.word w :: forms) (ts.flatMap (Token.spelled values)) =
      (namesAnywhere .pieces (.word w :: forms) ts).map (spelled values) := by
  induction ts with
  | nil => rfl
  | cons t ts ih =>
    rw [settlesAnywhere, Bool.and_eq_true, Bool.or_eq_true, Bool.not_eq_true'] at h
    have ih := ih h.2 hn.of_append_right fun f hf => hq f (List.mem_cons_of_mem _ hf)
    have hclear (ht : opensClear [t] = true) := names_flatMap (h.1.resolve_left (by simp [ht])) hn
    cases t with
    | word ps =>
      have hfirst := hclear rfl
      rw [flatMap_spelled_word] at hfirst ⊢
      rw [namesAnywhere, namesAnywhere, List.map_append, hfirst, ih]
    | mark piece =>
      cases piece with
      | char c =>
        have hfirst := hclear rfl
        rw [flatMap_spelled_mark] at hfirst ⊢
        rw [namesAnywhere, namesAnywhere, List.map_append, hfirst, ih]
      | field f =>
        rw [List.flatMap_cons, Token.spelled, namesAnywhere_append (hq f List.mem_cons_self), ih]
        rfl

/-- No value between words has a `c`, which a word for a declaration has. -/
def Quiet (values : Values) (pieces : List Piece) : Prop :=
  ∀ f, Piece.field f ∈ pieces → Role.ofKey f.key ≠ .identifier → 'c' ∉ values f.key

theorem declared_spelled {line : List Piece} (hs : spaced line = true)
    (hc : settlesLine target line = true) (hn : Named values line) (hq : Quiet values line) :
    declared .text target (spelled values line) =
      (declared .pieces target line).map (spelled values) := by
  have ht : tokens Alphabet.text.isPart (spelled values line) =
      (tokens Piece.isPart line).flatMap (Token.spelled values) := tokens_spelled hs hn
  have hchars := @flatMap_chars_tokens _ Piece.isPart line
  simp only [declared, ht]
  cases target with
  | desktop =>
    simp only [settlesLine, Bool.and_eq_true] at hc
    simp only [dropWhile_isIndent hc.1]
    refine names_flatMap hc.2 (hn.mono fun piece hp => ?_)
    rw [← hchars]
    obtain ⟨t, ht, hp⟩ := List.mem_flatMap.1 hp
    exact List.mem_flatMap.2 ⟨t, (List.dropWhile_suffix _).mem ht, hp⟩
  | browser =>
    refine namesAnywhere_flatMap hc (by rwa [hchars]) fun f hf hm => ?_
    have hline : Piece.field f ∈ line := hchars ▸ List.mem_flatMap.2 ⟨_, hf, List.mem_singleton.2 rfl⟩
    refine hq f hline ?_ ?_
    · simpa [Piece.isPart] using isPart_of_mem_tokens hf
    · rw [← @flatMap_chars_tokens _ Identifier.isPart (values f.key)]
      exact List.mem_flatMap.2 ⟨_, hm, by decide⟩

theorem declaredFirst_spelled {line : List Piece} (hs : spaced line = true)
    (hc : settles target.declaration (tokens Piece.isPart line) = true) (hn : Named values line) :
    declaredFirst .text target (spelled values line) =
      (declaredFirst .pieces target line).map (spelled values) := by
  have ht : tokens Alphabet.text.isPart (spelled values line) =
      (tokens Piece.isPart line).flatMap (Token.spelled values) := tokens_spelled hs hn
  rw [declaredFirst, ht]
  exact names_flatMap hc (by rwa [flatMap_chars_tokens])

end FlowScript
