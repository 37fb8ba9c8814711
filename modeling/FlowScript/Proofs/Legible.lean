/-
Texts that templates spell, line by line. The pieces of a legible template
can be read without the values of its fields: where its lines begin and end,
what is code in them and which names they declare (`Legible`). What is found
in the pieces is then what is found in the text, for all values that suit
their fields.
-/
import FlowScript.Proofs.Tokens

namespace FlowScript

open Template (Piece Values spelled pieceLines)
open Code

/-! ## Legible pieces -/

/-- The names that lines of pieces declare at their very beginning. -/
def shownNames (target : Target) (pieces : List Piece) : List (List Piece) :=
  (pieceLines pieces).flatMap (declaredFirst .pieces target)

/-- The pieces that are code. -/
def codePieces (target : Target) (pieces : List Piece) : List Piece :=
  (keepPieces target .code pieces).getD []

/-- The names that lines of pieces declare in code. -/
def codeNames (target : Target) (pieces : List Piece) : List (List Piece) :=
  (pieceLines (codePieces target pieces)).flatMap (declared .pieces target)

/-- Pieces that a reader can follow, and whose declarations in code are the
same for all values. -/
structure Legible (target : Target) (pieces : List Piece) : Prop where
  noReturn : Piece.char '\r' ∉ pieces
  kept : (keepPieces target .code pieces).isSome
  spacedLines : ∀ line ∈ pieceLines (codePieces target pieces), spaced line = true
  settled : ∀ line ∈ pieceLines (codePieces target pieces), settlesLine target line = true

instance (target : Target) (pieces : List Piece) : Decidable (Legible target pieces) :=
  decidable_of_iff
    (Piece.char '\r' ∉ pieces ∧ (keepPieces target .code pieces).isSome ∧
      (∀ line ∈ pieceLines (codePieces target pieces), spaced line = true) ∧
      ∀ line ∈ pieceLines (codePieces target pieces), settlesLine target line = true)
    ⟨fun ⟨h1, h2, h3, h4⟩ => ⟨h1, h2, h3, h4⟩, fun ⟨h1, h2, h3, h4⟩ => ⟨h1, h2, h3, h4⟩⟩

/-- Whether the names that a line of pieces declares at its very beginning
are the same for all values. -/
def settlesFirst (target : Target) (line : List Piece) : Bool :=
  spaced line && settles target.declaration (tokens Piece.isPart line)

variable {target : Target} {values : Values}

theorem mem_of_mem_pieceLines {pieces line : List Piece} (h : line ∈ pieceLines pieces) {piece : Piece}
    (hp : piece ∈ line) : piece ∈ pieces := by
  induction pieces generalizing line with
  | nil =>
    obtain rfl := List.mem_singleton.1 h
    cases hp
  | cons q pieces ih =>
    rw [pieceLines, List.splitOnP_cons_eq_if_modifyHead] at h
    split at h
    · rcases List.mem_cons.1 h with rfl | h
      · cases hp
      · exact List.mem_cons_of_mem _ (ih h hp)
    · change line ∈ (pieceLines pieces).modifyHead (q :: ·) at h
      cases hlines : pieceLines pieces with
      | nil => rw [hlines] at h; cases h
      | cons first rest =>
        rw [hlines] at h ih
        rcases List.mem_cons.1 h with rfl | h
        · rcases List.mem_cons.1 hp with rfl | hp
          · exact List.mem_cons_self
          · exact List.mem_cons_of_mem _ (ih List.mem_cons_self hp)
        · exact List.mem_cons_of_mem _ (ih (List.mem_cons_of_mem _ h) hp)

theorem mem_of_mem_keepPieces {m : Mode} {pieces kept : List Piece}
    (hk : keepPieces target m pieces = some kept) {f : Template.Field} (hf : Piece.field f ∈ kept) :
    Piece.field f ∈ pieces ∧ Role.ofKey f.key ≠ .remark := by
  induction pieces generalizing m kept with
  | nil =>
    rw [keepPieces] at hk
    split at hk
    · cases hk; cases hf
    · cases hk
  | cons piece pieces ih =>
    cases piece with
    | char c =>
      rw [keepPieces, Option.map_eq_some_iff] at hk
      obtain ⟨rest, hrest, rfl⟩ := hk
      have hmem : Piece.field f ∈ rest := by
        split at hf
        · exact (List.mem_cons.1 hf).resolve_left (by simp)
        · exact hf
      exact (ih hrest hmem).imp_left (List.mem_cons_of_mem _)
    | field g =>
      rw [keepPieces] at hk
      split at hk
      next => exact (ih hk hf).imp_left (List.mem_cons_of_mem _)
      next =>
      split at hk
      next h =>
        obtain ⟨rest, hrest, rfl⟩ := Option.map_eq_some_iff.1 hk
        rcases List.mem_cons.1 hf with he | hf
        · cases he
          refine ⟨List.mem_cons_self, fun hrole => ?_⟩
          simp [hrole] at h
        · exact (ih hrest hf).imp_left (List.mem_cons_of_mem _)
      next => cases hk

/-! ## Values -/

theorem Code.Fit.named {pieces : List Piece} (h : Fit target values pieces) : Named values pieces := by
  constructor
  · intro f hf hrole
    have hs := h f hf
    rwa [hrole] at hs
  · intro f hf hrole
    have hs := h f hf
    rw [hrole] at hs
    exact IsExpression.starts hs

theorem Legible.keepPieces_eq {pieces : List Piece} (h : Legible target pieces) :
    keepPieces target .code pieces = some (codePieces target pieces) := by
  obtain ⟨kept, hk⟩ := Option.isSome_iff_exists.1 h.kept
  rw [codePieces, hk]
  rfl

theorem codeValues_identifier {key : String}
    (h : Identifier.isIdentifier (String.ofList (values key)) = true) :
    codeValues target values key = values key :=
  code_plain (all_isPlain_of_isIdentifier h)

theorem Legible.named {pieces : List Piece} (h : Legible target pieces) (hf : Fit target values pieces) :
    Named (codeValues target values) (codePieces target pieces) := by
  constructor
  · intro f hm hrole
    have hid := hf.named.identifier f (mem_of_mem_keepPieces h.keepPieces_eq hm).1 hrole
    rwa [codeValues_identifier hid]
  · intro f hm hrole
    obtain ⟨c, rest, he, hc⟩ :=
      hf.named.expression f (mem_of_mem_keepPieces h.keepPieces_eq hm).1 hrole
    rw [codeValues, he, code_code_cons]
    exact ⟨c, _, rfl, hc⟩

theorem Legible.quiet {pieces : List Piece} (h : Legible target pieces) (hf : Fit target values pieces) :
    Quiet (codeValues target values) (codePieces target pieces) := by
  intro f hm hrole hc
  obtain ⟨hmem, hremark⟩ := mem_of_mem_keepPieces h.keepPieces_eq hm
  have hs := hf f hmem
  cases hr : Role.ofKey f.key with
  | identifier => exact hrole hr
  | remark => exact hremark hr
  | expression =>
    rw [hr] at hs
    exact (IsExpression.quiet hs 'c' hc).2 rfl

theorem Legible.inline {pieces : List Piece} (h : Legible target pieces) (hf : Fit target values pieces) :
    Template.Inline (codeValues target values) (codePieces target pieces) :=
  fun f hm hc => hf.inline f (mem_of_mem_keepPieces h.keepPieces_eq hm).1 (mem_of_mem_code hc)

/-! ## Names -/

theorem flatMap_declaredFirst {pieces : List Piece} (hf : Fit target values pieces)
    (hs : ∀ line ∈ pieceLines pieces, settlesFirst target line = true) :
    ((spelled values pieces).splitOn '\n').flatMap (declaredFirst .text target) =
      (shownNames target pieces).map (spelled values) := by
  rw [Template.splitOn_spelled hf.inline, List.flatMap_map, shownNames, List.map_flatMap]
  refine congrArg List.flatten (List.map_congr_left fun line hline => ?_)
  have hs := hs line hline
  rw [settlesFirst, Bool.and_eq_true] at hs
  exact declaredFirst_spelled hs.1 hs.2 (hf.named.mono fun _ => mem_of_mem_pieceLines hline)

theorem Legible.flatMap_declared {pieces : List Piece} (h : Legible target pieces)
    (hf : Fit target values pieces) :
    ((code target .code (spelled values pieces)).splitOn '\n').flatMap (declared .text target) =
      (codeNames target pieces).map (spelled (codeValues target values)) := by
  rw [code_spelled_self h.keepPieces_eq hf, Template.splitOn_spelled (h.inline hf), List.flatMap_map,
    codeNames, List.map_flatMap]
  refine congrArg List.flatten (List.map_congr_left fun line hline => ?_)
  have hsub : ∀ piece ∈ line, piece ∈ codePieces target pieces := fun _ => mem_of_mem_pieceLines hline
  exact declared_spelled (h.spacedLines line hline) (h.settled line hline) ((h.named hf).mono hsub)
    fun f hm => h.quiet hf f (hsub _ hm)

/-! ## Beginnings of lines -/

/-- Whether what pieces spell cannot begin with some characters, whatever the
values are. -/
def differs : List Char → List Piece → Bool
  | [], _ => false
  | _ :: _, [] => true
  | c :: cs, .char d :: pieces => c != d || differs cs pieces
  | c :: _, .field f :: _ => Role.ofKey f.key == .identifier && !Identifier.isPart c

theorem not_isPrefix_spelled {cs : List Char} {pieces : List Piece} (h : differs cs pieces = true)
    (hn : Named values pieces) : ¬ cs <+: spelled values pieces := by
  induction cs generalizing pieces with
  | nil => cases h
  | cons c cs ih =>
    cases pieces with
    | nil => exact fun hp => by cases List.prefix_nil.1 hp
    | cons piece pieces =>
      cases piece with
      | char d =>
        rw [differs, Bool.or_eq_true, bne_iff_ne] at h
        rw [Template.spelled_char, List.cons_prefix_cons]
        rintro ⟨rfl, hp⟩
        exact ih (h.resolve_left fun hne => hne rfl) hn.tail hp
      | field f =>
        rw [differs, Bool.and_eq_true, beq_iff_eq, Bool.not_eq_true'] at h
        obtain ⟨d, rest, he, hd, -⟩ := isIdentifier_iff.1 (hn.identifier f List.mem_cons_self h.1)
        rw [Template.spelled_field, he, List.cons_append, List.cons_prefix_cons]
        rintro ⟨rfl, -⟩
        rw [Identifier.isPart_of_isStart hd] at h
        cases h.2

/-! ## Keys -/

/-- Whether a piece needs no key, or one of some keys. -/
def Template.Piece.isKeyed (keys : List String) : Piece → Bool
  | .char _ => true
  | .field f => keys.contains f.key

end FlowScript
