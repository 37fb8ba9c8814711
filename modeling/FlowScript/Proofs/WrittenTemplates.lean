/-
Templates as they are written. A template is meant as a list of texts and of
places for values; it is written by doubling each brace of the texts and by
putting each key between braces. The scanner reads back what was meant
(`scan_written`), whichever braces stand side by side, so a written template
puts its texts and the values together in order, and the first key without a
value is the one reported (`render_written`).
-/
import FlowScript.Proofs.Filling
import Mathlib.Data.List.TakeWhile

namespace FlowScript.Template

/-- A key that can be written: it neither ends its field nor begins a layout. -/
structure Key where
  name : String
  ne_empty : name ≠ ""
  plain : ∀ c ∈ name.toList, c ≠ '{' ∧ c ≠ '}' ∧ c ≠ ':'

/-- A part of a template as it is meant. -/
inductive Part where
  | text (s : String)
  | slot (key : Key)

/-- A character of a text as it is written. -/
def doubled (c : Char) : List Char := if c = '{' ∨ c = '}' then [c, c] else [c]

def Part.written : Part → List Char
  | .text s => s.toList.flatMap doubled
  | .slot key => '{' :: (key.name.toList ++ ['}'])

def written (parts : List Part) : String := String.ofList (parts.flatMap Part.written)

/-! ## Reading back -/

namespace Key

variable (key : Key)

/-- The field that a key is read as. -/
def field : Field := { key := key.name, layout := .plain }

theorem read_field : Field.read key.name.toList = .ok key.field := by
  have hall : ∀ c ∈ key.name.toList, (c != ':') = true := fun c hc => by simp [(key.plain c hc).2.2]
  have htake : key.name.toList.takeWhile (· != ':') = key.name.toList := List.takeWhile_eq_self_iff.2 hall
  have hdrop : key.name.toList.dropWhile (· != ':') = [] := List.dropWhile_eq_nil_iff.2 hall
  simp only [Field.read, htake, hdrop, String.toList_eq_nil_iff, key.ne_empty, if_false, List.drop_nil,
    Layout.read_nil]
  simp [field, bind, Except.bind, pure, Except.pure]

end Key

/-- The pieces that a part is cut into. -/
def Part.pieces : Part → List Piece
  | .text s => s.toList.map .char
  | .slot key => [.field key.field]

/-- What was cut off before goes before what is cut off now. -/
def Scanned.prepend (pieces : List Piece) (s : Scanned) : Scanned := { s with pieces := pieces ++ s.pieces }

theorem Scanned.prepend_cons (piece : Piece) (pieces : List Piece) (s : Scanned) :
    s.prepend (piece :: pieces) = (s.prepend pieces).cons piece := rfl

theorem scan_doubled (c : Char) (cs : List Char) :
    scan none false (doubled c ++ cs) = (scan none false cs).cons (.char c) := by
  by_cases hopen : c = '{'
  · subst hopen; rfl
  by_cases hclose : c = '}'
  · subst hclose; rfl
  simp [doubled, scan, hopen, hclose]

theorem scan_text (s cs : List Char) :
    scan none false (s.flatMap doubled ++ cs) = (scan none false cs).prepend (s.map .char) := by
  induction s with
  | nil => rfl
  | cons c s ih =>
    rw [List.flatMap_cons, List.append_assoc, scan_doubled, ih, List.map_cons, Scanned.prepend_cons]

/-- What has no braces is read into the field that is open. -/
theorem scan_field (read s cs : List Char) (h : ∀ c ∈ s, c ≠ '{' ∧ c ≠ '}') :
    scan (some read) false (s ++ cs) = scan (some (s.reverse ++ read)) false cs := by
  induction s generalizing read with
  | nil => rfl
  | cons c s ih =>
    obtain ⟨hopen, hclose⟩ := h c List.mem_cons_self
    simp [scan, hopen, hclose, ih _ fun d hd => h d (List.mem_cons_of_mem _ hd)]

theorem scan_slot (key : Key) (cs : List Char) :
    scan none false ((Part.slot key).written ++ cs) = (scan none false cs).cons (.field key.field) := by
  have hbraces : ∀ c ∈ key.name.toList, c ≠ '{' ∧ c ≠ '}' := fun c hc =>
    ⟨(key.plain c hc).1, (key.plain c hc).2.1⟩
  have hopen : scan none false ((Part.slot key).written ++ cs) =
      scan (some []) false (key.name.toList ++ '}' :: cs) := by
    simp [Part.written, scan]
  rw [hopen, scan_field _ _ _ hbraces]
  simp [scan, key.read_field]

theorem scan_part (part : Part) (cs : List Char) :
    scan none false (part.written ++ cs) = (scan none false cs).prepend part.pieces := by
  cases part with
  | text s => exact scan_text s.toList cs
  | slot key => exact scan_slot key cs

/-- A written template is cut into the pieces that were meant, without a fault. -/
theorem scan_written (parts : List Part) :
    scan none false (written parts).toList = { pieces := parts.flatMap Part.pieces, fault := none } := by
  rw [written, String.toList_ofList]
  induction parts with
  | nil => rfl
  | cons part parts ih =>
    rw [List.flatMap_cons, scan_part, ih]
    rfl

/-! ## Filling -/

/-- What a part becomes; a key without a value has no text. -/
def Part.shown (context : Context) : Part → String
  | .text s => s
  | .slot key => (context.get? key.name).getD ""

/-- All keys of the parts have values. -/
def AllBound (context : Context) (parts : List Part) : Prop :=
  ∀ key, Part.slot key ∈ parts → (context.get? key.name).isSome

/-- A key of the parts has no value, and all keys before it have one. -/
inductive FirstUnbound (context : Context) : List Part → Key → Prop
  | here {key parts} (h : context.get? key.name = none) : FirstUnbound context (.slot key :: parts) key
  | afterText {s parts key} (h : FirstUnbound context parts key) : FirstUnbound context (.text s :: parts) key
  | afterSlot {bound value parts key} (hbound : context.get? bound.name = some value)
      (h : FirstUnbound context parts key) : FirstUnbound context (.slot bound :: parts) key

variable {context : Context} {parts : List Part}

theorem allBound_or_firstUnbound (context : Context) (parts : List Part) :
    AllBound context parts ∨ ∃ key, FirstUnbound context parts key := by
  induction parts with
  | nil => exact .inl (by simp [AllBound])
  | cons part parts ih =>
    cases part with
    | text s =>
      rcases ih with hall | ⟨key, hfirst⟩
      · exact .inl fun key hkey => hall key (by simpa using hkey)
      · exact .inr ⟨key, .afterText hfirst⟩
    | slot key =>
      cases hvalue : context.get? key.name with
      | none => exact .inr ⟨key, .here hvalue⟩
      | some value =>
        rcases ih with hall | ⟨other, hfirst⟩
        · refine .inl fun other hother => ?_
          rcases List.mem_cons.1 hother with heq | hother
          · cases heq; simp [hvalue]
          · exact hall other hother
        · exact .inr ⟨other, .afterSlot hvalue hfirst⟩

theorem isPlain_pieces (parts : List Part) : (parts.flatMap Part.pieces).all Piece.isPlain = true := by
  simp only [List.all_eq_true, List.mem_flatMap]
  intro piece hpiece
  obtain ⟨part, -, hpiece⟩ := hpiece
  cases part with
  | text s =>
    obtain ⟨c, -, rfl⟩ := List.mem_map.1 hpiece
    rfl
  | slot key =>
    obtain rfl := List.mem_singleton.1 hpiece
    simp [Piece.isPlain, Key.field]

theorem isBound_pieces_iff :
    (∀ piece ∈ parts.flatMap Part.pieces, piece.IsBound context) ↔ AllBound context parts := by
  constructor
  · intro h key hkey
    exact h (.field key.field) (List.mem_flatMap.2 ⟨_, hkey, by simp [Part.pieces]⟩)
  · intro h piece hpiece
    obtain ⟨part, hpart, hpiece⟩ := List.mem_flatMap.1 hpiece
    cases part with
    | text s =>
      obtain ⟨c, -, rfl⟩ := List.mem_map.1 hpiece
      trivial
    | slot key =>
      obtain rfl := List.mem_singleton.1 hpiece
      exact h key hpart

theorem spelled_pieces (context : Context) (parts : List Part) :
    spelled context.values (parts.flatMap Part.pieces) = (String.join (parts.map (Part.shown context))).toList := by
  induction parts with
  | nil => rfl
  | cons part parts ih =>
    rw [List.flatMap_cons, spelled_append, ih, List.map_cons, String.join_cons, String.toList_append]
    cases part with
    | text s => rw [Part.pieces, spelled_map_char]; rfl
    | slot key => simp [Part.pieces, Part.shown, Key.field, Context.values]

theorem FirstUnbound.mapM_fill {key : Key} (h : FirstUnbound context parts key) :
    (parts.flatMap Part.pieces).mapM (Piece.fill context) = .error (.unboundKey key.name) := by
  induction h with
  | @here key parts hnone =>
    simp [Part.pieces, Piece.fill, Key.field, hnone, bind, Except.bind]
  | @afterText s parts key h ih =>
    have hplain : (s.toList.map Piece.char).all Piece.isPlain = true := by simp [Piece.isPlain]
    have hbound : ∀ piece ∈ s.toList.map Piece.char, piece.IsBound context := by simp [Piece.IsBound]
    exact mapM_append_eq_error ((mapM_fill_eq_ok_iff hplain _).2 ⟨hbound, rfl⟩) ih
  | @afterSlot bound value parts key hbound h ih =>
    have hfill : [Piece.field bound.field].mapM (Piece.fill context) = .ok [value.toList] := by
      simp [Piece.fill, Key.field, hbound, Layout.apply_plain, bind, Except.bind, pure, Except.pure]
    exact mapM_append_eq_error hfill ih

theorem FirstUnbound.render {key : Key} (h : FirstUnbound context parts key) (name : String) :
    Template.render { name, source := written parts } context =
      .error { template := name, fault := .unboundKey key.name } := by
  simp [Template.render, scan_written, Scanned.fill, h.mapM_fill, bind, Except.bind]

theorem render_eq_ok_iff_allBound {name text : String} :
    Template.render { name, source := written parts } context = .ok text ↔
      AllBound context parts ∧ text = String.join (parts.map (Part.shown context)) := by
  have hplain : (scan none false (written parts).toList).isPlain = true := by
    rw [scan_written]
    simpa [Scanned.isPlain] using isPlain_pieces parts
  rw [render_eq_ok_iff (t := { name, source := written parts }) hplain, scan_written, isBound_pieces_iff,
    spelled_pieces, String.toList_inj]

/-- **A written template means what its parts mean.** If all keys have values,
it becomes the texts and the values in order, each as it is, and otherwise it
fails by its own name and the first key that has none. -/
theorem render_written (name : String) (parts : List Part) (context : Context) :
    (∀ text, Template.render { name, source := written parts } context = .ok text ↔
      AllBound context parts ∧ text = String.join (parts.map (Part.shown context))) ∧
    ∀ failure, Template.render { name, source := written parts } context = .error failure ↔
      ∃ key, FirstUnbound context parts key ∧ failure = { template := name, fault := .unboundKey key.name } ∧
        failure.message = "template '" ++ name ++ "': " ++ ("KeyError(Invalid key: " ++ key.name ++ ")") := by
  refine ⟨fun text => render_eq_ok_iff_allBound, fun failure => ?_⟩
  constructor
  · intro hfailure
    rcases allBound_or_firstUnbound context parts with hall | ⟨key, hfirst⟩
    · rw [render_eq_ok_iff_allBound.2 ⟨hall, rfl⟩] at hfailure
      cases hfailure
    · rw [hfirst.render] at hfailure
      obtain rfl := Except.error.inj hfailure
      exact ⟨key, hfirst, rfl, rfl⟩
  · intro h
    obtain ⟨key, hfirst, hfailure, -⟩ := h
    rw [hfailure, hfirst.render]

/-- A key between a text that ends with a brace and one that begins with a brace. -/
example : written [.text "\x7b", .slot ⟨"k", by simp, by simp⟩, .text "\x7d"] = "\x7b\x7b\x7bk\x7d\x7d\x7d" := by
  decide

end FlowScript.Template
