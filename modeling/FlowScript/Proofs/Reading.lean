/-
The code of what a template spells. A reader of the program goes through the
pieces of a template as through text: a field of a comment leaves it in the
comment, and a field of code leaves it in code. `keepPieces` is that reader,
and `code_spelled` says that the code of the text is what the pieces that it
keeps spell, whatever the values are, as long as they suit their fields.
-/
import FlowScript.Proofs.Values

namespace FlowScript.Code

open Template (Piece Values spelled)

variable {target : Target} {values : Values}

/-- Values that suit the fields of pieces. -/
def Fit (target : Target) (values : Values) (pieces : List Piece) : Prop :=
  ∀ f, Piece.field f ∈ pieces → Suits target (values f.key) (.ofKey f.key)

theorem Fit.tail {piece : Piece} {pieces : List Piece} (h : Fit target values (piece :: pieces)) :
    Fit target values pieces := fun f hf => h f (List.mem_cons_of_mem _ hf)

theorem Fit.inline {pieces : List Piece} (h : Fit target values pieces) :
    Template.Inline values pieces := fun f hf hm => ((h f hf).oneLine _ hm).1 rfl

theorem Fit.mono {a b : List Piece} (h : Fit target values b) (hsub : ∀ p ∈ a, p ∈ b) :
    Fit target values a := fun f hf => h f (hsub _ hf)

/-- Nothing that ends a line stands in a text of fitting values, except what the pieces end. -/
theorem not_mem_spelled {c : Char} (hc : c = '\n' ∨ c = '\r') {pieces : List Piece}
    (h : Fit target values pieces) (hp : Piece.char c ∉ pieces) : c ∉ spelled values pieces := by
  intro hm
  obtain ⟨piece, hpiece, hm⟩ := List.mem_flatMap.1 hm
  cases piece with
  | char d =>
    rw [Piece.spelled, List.mem_singleton] at hm
    exact hp (hm ▸ hpiece)
  | field f =>
    obtain ⟨h1, h2⟩ := (h f hpiece).oneLine c hm
    rcases hc with rfl | rfl
    · exact h1 rfl
    · exact h2 rfl

/-! ## Reading pieces -/

/-- Whether pieces begin with a character that cannot go on with a string literal. -/
def opensPlain (target : Target) : List Piece → Bool
  | [] => true
  | .char c :: _ => !isQuote target c
  | .field _ :: _ => false

/-- The pieces that a reader takes as code, if it can tell them whatever the
values are, and ends in code or in a comment. -/
def keepPieces (target : Target) : Mode → List Piece → Option (List Piece)
  | m, [] => if m = .code ∨ m = .remark then some [] else none
  | m, .char c :: pieces =>
    (keepPieces target (next target m c) pieces).map fun kept =>
      if keeps target m c then .char c :: kept else kept
  | m, .field f :: pieces =>
    if m = .remark ∧ Role.ofKey f.key = .remark then keepPieces target .remark pieces
    else if m = .code ∧ (Role.ofKey f.key = .identifier ∨
        Role.ofKey f.key = .expression ∧ opensPlain target pieces) then
      (keepPieces target .code pieces).map (.field f :: ·)
    else none

/-- The code of values. -/
def codeValues (target : Target) (values : Values) : Values := fun key => code target .code (values key)

/-- What may come after a text that is read by itself: the end, or another line. -/
def NewLine (tail : List Char) : Prop := ∀ c ∈ tail.head?, c = '\n'

theorem isPlain_of_isPart {c : Char} (h : Identifier.isPart c = true) : isPlain target c = true := by
  have hne : ∀ d : Char, Identifier.isPart d = false → c ≠ d := fun d hd => ne_of_isPart h hd
  have hq : isQuote target c = false := by
    cases target <;> simp [isQuote, hne '\'' (by decide), hne '"' (by decide),
      hne (Char.ofNat 0x60) (by decide)]
  cases target <;> simp [isPlain, lead, hq, hne '#' (by decide), hne '/' (by decide)]

theorem all_isPlain_of_isIdentifier {cs : List Char}
    (h : Identifier.isIdentifier (String.ofList cs) = true) : cs.all (isPlain target) = true :=
  List.all_eq_true.2 fun c hc => isPlain_of_isPart (isPart_of_isIdentifier h c hc)

theorem code_remark_append {cs : List Char} (h : IsRemark cs) (tail : List Char) :
    code target .remark (cs ++ tail) = code target .remark tail := by
  induction cs with
  | nil => rfl
  | cons c cs ih =>
    obtain ⟨⟨hcontrol, hblank⟩, hcs⟩ := List.forall_mem_cons.1 h
    have hends : endsRemark target c = false := by
      have hne : ∀ d : Char, Text.isControl d = true ∨ (Text.isBlank d = true ∧ d ≠ ' ') → c ≠ d := by
        rintro d (hd | ⟨hd, hne⟩) rfl
        · rw [hcontrol] at hd; cases hd
        · exact hne (hblank hd)
      cases target <;> simp [endsRemark, hne '\n' (by decide), hne '\r' (by decide),
        hne '\u2028' (by decide), hne '\u2029' (by decide)]
    have hn : next target .remark c = .remark := by simp [next, hends]
    have hdrops : keeps target .remark c = false := hends
    rw [List.cons_append, code_cons_of_drops hdrops, hn, ih hcs]

theorem noQuote_spelled {pieces : List Piece} (h : opensPlain target pieces = true) {tail : List Char}
    (ht : NewLine tail) : NoQuote target (spelled values pieces ++ tail) := by
  cases pieces with
  | nil =>
    intro c hc
    rw [ht c hc]
    cases target <;> decide
  | cons piece pieces =>
    cases piece with
    | char c =>
      intro d hd
      cases hd
      simpa [opensPlain] using h
    | field f => simp [opensPlain] at h

theorem code_newLine {m : Mode} (hm : m = .code ∨ m = .remark) {tail : List Char} (ht : NewLine tail) :
    code target m tail = code target .code tail := by
  cases tail with
  | nil => rfl
  | cons c tail =>
    obtain rfl := ht c rfl
    rcases hm with rfl | rfl
    · rfl
    · cases target <;> rfl

/-- The code of what pieces spell is what the kept pieces spell. -/
theorem code_spelled {m : Mode} {pieces kept : List Piece}
    (hk : keepPieces target m pieces = some kept) (hf : Fit target values pieces)
    {tail : List Char} (ht : NewLine tail) :
    code target m (spelled values pieces ++ tail) =
      spelled (codeValues target values) kept ++ code target .code tail := by
  -- The mode stays free: a character changes it as in text, and a field leaves it as it is.
  induction pieces generalizing m kept with
  | nil =>
    rw [keepPieces] at hk
    split at hk
    next hm =>
      cases hk
      exact code_newLine hm ht
    next => cases hk
  | cons piece pieces ih =>
    cases piece with
    | char c =>
      rw [keepPieces, Option.map_eq_some_iff] at hk
      obtain ⟨rest, hrest, rfl⟩ := hk
      rw [Template.spelled_char, List.cons_append]
      cases hc : keeps target m c with
      | true => rw [code_cons_of_keeps hc, ih hrest hf.tail]; rfl
      | false => rw [code_cons_of_drops hc, ih hrest hf.tail]; rfl
    | field f =>
      have hs := hf f List.mem_cons_self
      rw [keepPieces] at hk
      rw [Template.spelled_field, List.append_assoc]
      split at hk
      next h =>
        obtain ⟨rfl, hrole⟩ := h
        rw [hrole] at hs
        rw [code_remark_append hs, ih hk hf.tail]
      next =>
      split at hk
      next h =>
        obtain ⟨rest, hrest, rfl⟩ := Option.map_eq_some_iff.1 hk
        have hvalue : code target .code (values f.key ++ (spelled values pieces ++ tail)) =
            code target .code (values f.key) ++ code target .code (spelled values pieces ++ tail) := by
          rcases h.2 with hrole | ⟨hrole, hopens⟩
          · rw [hrole] at hs
            have hplain := @all_isPlain_of_isIdentifier target _ hs
            rw [code_plain_append hplain, code_plain hplain]
          · rw [hrole] at hs
            exact IsExpression.settled hs _ (noQuote_spelled hopens ht)
        rw [h.1, hvalue, ih hrest hf.tail, Template.spelled_field, codeValues, List.append_assoc]
      next => cases hk

theorem code_spelled_self {pieces kept : List Piece}
    (hk : keepPieces target .code pieces = some kept) (hf : Fit target values pieces) :
    code target .code (spelled values pieces) = spelled (codeValues target values) kept := by
  simpa using code_spelled hk hf (fun c (hc : c ∈ [].head?) => by cases hc)

end FlowScript.Code
