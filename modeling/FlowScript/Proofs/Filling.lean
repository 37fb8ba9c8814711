/-
What a filled template spells. A template whose fields have no layout of
their own spells its characters with the values of its keys between them,
and it can be filled as soon as every key has a value
(`render_eq_ok_iff`). Lines are cut in the template as in what it spells
(`splitOn_spelled`), as long as no value has an end of line.
-/
import FlowScript.Proofs.Results
import FlowScript.Template.Basic

namespace FlowScript

namespace Template

/-- The characters that stand for each key. -/
abbrev Values := String → List Char

/-- The values of a context; a key without a value has no characters. -/
def Context.values (context : Context) : Values := fun key => ((context.get? key).getD "").toList

theorem Context.values_of_get? {context : Context} {key value : String}
    (h : context.get? key = some value) : context.values key = value.toList := by
  simp [values, h]

def Piece.spelled (values : Values) : Piece → List Char
  | .char c => [c]
  | .field f => values f.key

/-- The characters of pieces. -/
def spelled (values : Values) (pieces : List Piece) : List Char := pieces.flatMap (Piece.spelled values)

@[simp] theorem spelled_nil (values : Values) : spelled values [] = [] := rfl

@[simp] theorem spelled_char (values : Values) (c : Char) (pieces : List Piece) :
    spelled values (.char c :: pieces) = c :: spelled values pieces := rfl

@[simp] theorem spelled_field (values : Values) (f : Field) (pieces : List Piece) :
    spelled values (.field f :: pieces) = values f.key ++ spelled values pieces := rfl

theorem spelled_append (values : Values) (a b : List Piece) :
    spelled values (a ++ b) = spelled values a ++ spelled values b := by
  simp [spelled]

theorem spelled_map_char (values : Values) (cs : List Char) :
    spelled values (cs.map Piece.char) = cs := by
  induction cs with
  | nil => rfl
  | cons c cs ih => rw [List.map_cons, spelled_char, ih]

/-! ## Filling -/

/-- Whether a value is put in as it is. -/
def Piece.isPlain : Piece → Bool
  | .char _ => true
  | .field f => f.layout == .plain

/-- A template without a fault, whose values are put in as they are. -/
def Scanned.isPlain (s : Scanned) : Bool := s.fault.isNone && s.pieces.all Piece.isPlain

def Piece.IsBound (context : Context) : Piece → Prop
  | .char _ => True
  | .field f => (context.get? f.key).isSome

theorem Piece.fill_eq_ok_iff {context : Context} {piece : Piece} (h : piece.isPlain = true)
    (cs : List Char) :
    piece.fill context = .ok cs ↔ piece.IsBound context ∧ cs = piece.spelled context.values := by
  cases piece with
  | char c => simp [fill, IsBound, spelled, eq_comm]
  | field f =>
    have hf : f.layout = .plain := by simpa [isPlain] using h
    cases hg : Dict.get? context f.key with
    | none => simp [fill, IsBound, hg]
    | some value =>
      simp [fill, IsBound, spelled, hg, hf, Layout.apply_plain, Context.values_of_get? hg, eq_comm]

theorem mapM_fill_eq_ok_iff {context : Context} {pieces : List Piece}
    (h : pieces.all Piece.isPlain = true) (texts : List (List Char)) :
    pieces.mapM (Piece.fill context) = .ok texts ↔
      (∀ piece ∈ pieces, piece.IsBound context) ∧ texts = pieces.map (Piece.spelled context.values) := by
  induction pieces generalizing texts with
  | nil => simp [pure, Except.pure, eq_comm]
  | cons piece pieces ih =>
    rw [List.all_cons, Bool.and_eq_true] at h
    simp only [List.mapM_cons, bind_eq_ok_iff, Piece.fill_eq_ok_iff h.1, ih h.2, List.forall_mem_cons,
      List.map_cons]
    constructor
    · rintro ⟨cs, ⟨hb, rfl⟩, rest, ⟨hrest, rfl⟩, ht⟩
      cases ht
      exact ⟨⟨hb, hrest⟩, rfl⟩
    · rintro ⟨⟨hb, hrest⟩, rfl⟩
      exact ⟨_, ⟨hb, rfl⟩, _, ⟨hrest, rfl⟩, rfl⟩

/-- A plain template is filled as soon as all its keys have values, and then
spells its pieces. -/
theorem render_eq_ok_iff {t : Template} {context : Context} {code : String}
    (h : (scan none false t.source.toList).isPlain = true) :
    t.render context = .ok code ↔
      (∀ piece ∈ (scan none false t.source.toList).pieces, piece.IsBound context) ∧
        code.toList = spelled context.values (scan none false t.source.toList).pieces := by
  rw [render]
  generalize scan none false t.source.toList = s at h
  rw [Scanned.isPlain, Bool.and_eq_true, Option.isNone_iff_eq_none] at h
  obtain ⟨hfault, hplain⟩ := h
  have hfill : ∀ cs, s.fill context = .ok cs ↔
      (∀ piece ∈ s.pieces, piece.IsBound context) ∧ cs = spelled context.values s.pieces := by
    intro cs
    simp only [Scanned.fill, bind_eq_ok_iff, mapM_fill_eq_ok_iff hplain, hfault]
    constructor
    · rintro ⟨texts, ⟨hb, rfl⟩, ht⟩
      cases ht
      exact ⟨hb, (List.flatMap_def ..).symm⟩
    · rintro ⟨hb, rfl⟩
      exact ⟨_, ⟨hb, rfl⟩, congrArg Except.ok (List.flatMap_def ..).symm⟩
  cases hc : s.fill context with
  | error fault =>
    simp only [reduceCtorEq, false_iff, not_and]
    intro hb _
    rw [(hfill _).2 ⟨hb, rfl⟩] at hc
    cases hc
  | ok cs =>
    obtain ⟨hb, rfl⟩ := (hfill cs).1 hc
    simp only [Except.ok.injEq]
    constructor
    · rintro rfl
      exact ⟨hb, String.toList_ofList⟩
    · rintro ⟨-, hcode⟩
      rw [← hcode, String.ofList_toList]

/-! ## Lines -/

/-- A piece that is an end of line. -/
def Piece.isNewline (piece : Piece) : Bool := piece == .char '\n'

/-- The lines of pieces. -/
def pieceLines (pieces : List Piece) : List (List Piece) := pieces.splitOnP Piece.isNewline

/-- No value of the pieces has an end of line. -/
def Inline (values : Values) (pieces : List Piece) : Prop :=
  ∀ f, Piece.field f ∈ pieces → '\n' ∉ values f.key

theorem Inline.tail {values : Values} {piece : Piece} {pieces : List Piece}
    (h : Inline values (piece :: pieces)) : Inline values pieces :=
  fun f hf => h f (List.mem_cons_of_mem _ hf)

theorem splitOn_append_of_not_mem {c : Char} {xs : List Char} (h : c ∉ xs) (ys : List Char) :
    (xs ++ ys).splitOn c = (ys.splitOn c).modifyHead (xs ++ ·) := by
  induction xs with
  | nil => cases h : ys.splitOn c <;> simp [h]
  | cons x xs ih =>
    have hx : (x == c) = false := beq_eq_false_iff_ne.2 fun e => h (e ▸ List.mem_cons_self)
    have hxs : c ∉ xs := fun hm => h (List.mem_cons_of_mem _ hm)
    rw [List.cons_append, List.splitOn, List.splitOnP_cons_eq_if_modifyHead, hx]
    change ((xs ++ ys).splitOn c).modifyHead (List.cons x) = _
    rw [ih hxs, List.modifyHead_modifyHead]
    rfl

/-- What pieces spell has the lines that the pieces have. -/
theorem splitOn_spelled {values : Values} {pieces : List Piece} (h : Inline values pieces) :
    (spelled values pieces).splitOn '\n' = (pieceLines pieces).map (spelled values) := by
  induction pieces with
  | nil => rfl
  | cons piece pieces ih =>
    have ih := ih h.tail
    rw [pieceLines, List.splitOnP_cons_eq_if_modifyHead]
    cases piece with
    | char c =>
      rw [spelled_char, List.splitOn, List.splitOnP_cons_eq_if_modifyHead]
      by_cases hc : c = '\n'
      · subst hc
        simp only [Piece.isNewline, beq_self_eq_true, if_true, List.map_cons, spelled_nil]
        exact congrArg _ ih
      · have hp : Piece.isNewline (.char c) = false := by simp [Piece.isNewline, hc]
        have hb : (c == '\n') = false := by simpa using hc
        simp only [hp, hb, Bool.false_eq_true, if_false]
        change ((spelled values pieces).splitOn '\n').modifyHead _ = _
        rw [ih]
        change _ = ((pieceLines pieces).modifyHead _).map _
        cases pieceLines pieces <;> rfl
    | field f =>
      have hp : Piece.isNewline (.field f) = false := by simp [Piece.isNewline]
      simp only [hp, Bool.false_eq_true, if_false]
      rw [spelled_field, splitOn_append_of_not_mem (h f (List.mem_cons_self ..)), ih]
      change _ = ((pieceLines pieces).modifyHead _).map _
      cases pieceLines pieces <;> rfl

end Template

end FlowScript
