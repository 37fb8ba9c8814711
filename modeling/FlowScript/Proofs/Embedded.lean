/-
The templates that come with the library. What their texts promise about the
programs made of them is said of their pieces, by definitions that can be
computed (`isComponent`, `isFrame`), and computed once for each template.
-/
import FlowScript.Program.Compiler
import FlowScript.Proofs.Legible

namespace FlowScript

open Template (Piece Values spelled Scanned pieceLines)
open Code

/-! ## Built-in kinds -/

/-- What is known of a built-in kind of component: its type, the keys it has
values for, and what stands after the label in the names it binds. -/
structure Builtin where
  type : String
  keys : List String
  endings : List String

def builtins : List Builtin :=
  [{ type := "text", keys := ["text", "duration", "x", "y", "height", "color"], endings := [""] },
    { type := "image", keys := ["image", "duration", "x", "y", "size"], endings := [""] },
    { type := "keyboard"
      keys := ["allowed_keys", "duration", "max_wait", "store_correct", "correct_answer"]
      endings := ["", Component.keysSuffix] },
    { type := "gpio", keys := ["pin", "state", "duration"], endings := [""] }]

/-- A kind that is what is known of it. -/
structure Builtin.Describes (b : Builtin) (kind : Component.Kind) : Prop where
  boundNames : ∀ label, kind.boundNames label = b.endings.map (label ++ ·)
  render : ∃ values, kind.render = Component.fillTemplate b.type values ∧ Finds values b.keys

/-- The built-in kinds, and how each finds its values. -/
def filled : List (Builtin × Component.Filling) :=
  builtins.zip [Component.textValues, Component.imageValues, Component.keyboardValues,
    Component.gpioValues]

theorem mem_builtins_of_mem_filled {p : Builtin × Component.Filling} (h : p ∈ filled) : p.1 ∈ builtins :=
  (List.of_mem_zip h).1

/-- What holds of the built-in kinds one by one. -/
theorem forall_mem_filled {P : Component.Filling → List String → Prop}
    (htext : P Component.textValues ["text", "duration", "x", "y", "height", "color"])
    (himage : P Component.imageValues ["image", "duration", "x", "y", "size"])
    (hkeyboard : P Component.keyboardValues
      ["allowed_keys", "duration", "max_wait", "store_correct", "correct_answer"])
    (hgpio : P Component.gpioValues ["pin", "state", "duration"]) : ∀ p ∈ filled, P p.2 p.1.keys := by
  simp only [filled, builtins, List.zip_cons_cons, List.zip_nil_right, List.forall_mem_cons]
  exact ⟨htext, himage, hkeyboard, hgpio, List.forall_mem_nil _⟩

theorem finds_filled : ∀ p ∈ filled, Finds p.2 p.1.keys :=
  forall_mem_filled finds_textValues finds_imageValues finds_keyboardValues finds_gpioValues

theorem get?_builtin_filled {type : String} {kind : Component.Kind}
    (h : Component.builtin.get? type = some kind) :
    ∃ p ∈ filled, p.1.type = type ∧ (∀ label, kind.boundNames label = p.1.endings.map (label ++ ·)) ∧
      kind.render = Component.fillTemplate p.1.type p.2 := by
  have hm : (type, kind) ∈ [("text", Component.textKind), ("image", Component.imageKind),
      ("keyboard", Component.keyboardKind), ("gpio", Component.gpioKind)] := get?_ofList h
  simp only [List.mem_cons, List.not_mem_nil, or_false, Prod.mk.injEq] at hm
  rcases hm with ⟨rfl, rfl⟩ | ⟨rfl, rfl⟩ | ⟨rfl, rfl⟩ | ⟨rfl, rfl⟩
  · exact ⟨_, .head _, rfl, by simp [Component.textKind, Component.Kind.filling], rfl⟩
  · exact ⟨_, .tail _ (.head _), rfl, by simp [Component.imageKind, Component.Kind.filling], rfl⟩
  · exact ⟨_, .tail _ (.tail _ (.head _)), rfl,
      by simp [Component.keyboardKind, Component.Kind.filling], rfl⟩
  · exact ⟨_, .tail _ (.tail _ (.tail _ (.head _))), rfl,
      by simp [Component.gpioKind, Component.Kind.filling], rfl⟩

theorem get?_builtin {type : String} {kind : Component.Kind}
    (h : Component.builtin.get? type = some kind) : ∃ b ∈ builtins, b.type = type ∧ b.Describes kind := by
  obtain ⟨p, hp, htype, hnames, hrender⟩ := get?_builtin_filled h
  exact ⟨p.1, mem_builtins_of_mem_filled hp, htype, hnames, p.2, hrender, finds_filled p hp⟩

/-! ## Lines of pieces -/

/-- A field whose value is put in as it is. -/
def plainField (key : String) : Piece := .field { key, layout := .plain }

/-- What begins the comment that names a node. -/
def Target.nodeMarker (target : Target) : String := target.commentSign ++ " Node: "

/-- The line before the components of a program. -/
def Target.sectionStart (target : Target) : String := target.commentSign ++ " --- Components ---"

/-- The line after the components of a program. -/
def Target.sectionEnd : Target → String
  | .desktop => "# --- End experiment ---"
  | .browser => "  // --- End experiment ---"

/-- The comment that names a node. -/
def nodeLine (target : Target) : List Piece :=
  target.nodeMarker.toList.map .char ++
    [plainField "display_label", .char ' ', .char '(', plainField "node_type", .char ')']

/-! ## Templates of components -/

/-- A name that a component binds, in pieces. -/
def namePieces (ending : String) : List Piece := plainField "label" :: ending.toList.map .char

/-- The names that the template of key presses declares for itself in the browser. -/
def keyLocals : List String := ["started", "keys"]

/-- The names that the template of a component declares besides those that its
kind binds. -/
def localNames (target : Target) (type : String) : List String :=
  if target = .browser ∧ type = "keyboard" then keyLocals else []

/-- What the template of a component promises, by its pieces without the end of the last line. -/
structure IsComponent (target : Target) (b : Builtin) (pieces : List Piece) : Prop where
  legible : Legible target pieces
  bound : ∀ piece ∈ pieces, piece.isKeyed (baseKeys ++ b.keys) = true
  last : pieces.getLast?.any (fun piece => piece.isChar && !piece.isNewline) = true
  marked : (pieceLines pieces).head? = some (nodeLine target)
  unmarked : ∀ line ∈ (pieceLines pieces).tail, differs target.nodeMarker.toList line = true
  inside : ∀ line ∈ pieceLines pieces, differs target.sectionEnd.toList line = true
  settled : ∀ line ∈ pieceLines pieces, settlesFirst target line = true
  shown : shownNames target pieces = b.endings.map namePieces
  declares : codeNames target pieces =
    b.endings.map namePieces ++ (localNames target b.type).map (·.toList.map .char)

instance (target : Target) (b : Builtin) (pieces : List Piece) : Decidable (IsComponent target b pieces) :=
  decidable_of_iff
    (Legible target pieces ∧ (∀ piece ∈ pieces, piece.isKeyed (baseKeys ++ b.keys) = true) ∧
      pieces.getLast?.any (fun piece => piece.isChar && !piece.isNewline) = true ∧
      (pieceLines pieces).head? = some (nodeLine target) ∧
      (∀ line ∈ (pieceLines pieces).tail, differs target.nodeMarker.toList line = true) ∧
      (∀ line ∈ pieceLines pieces, differs target.sectionEnd.toList line = true) ∧
      (∀ line ∈ pieceLines pieces, settlesFirst target line = true) ∧
      shownNames target pieces = b.endings.map namePieces ∧
      codeNames target pieces =
        b.endings.map namePieces ++ (localNames target b.type).map (·.toList.map .char))
    ⟨fun ⟨h1, h2, h3, h4, h5, h6, h7, h8, h9⟩ => ⟨h1, h2, h3, h4, h5, h6, h7, h8, h9⟩,
      fun ⟨h1, h2, h3, h4, h5, h6, h7, h8, h9⟩ => ⟨h1, h2, h3, h4, h5, h6, h7, h8, h9⟩⟩

/-- A text that is read without a fault, and whose pieces without the end of
the last line are those of a component. -/
def IsComponentText (target : Target) (b : Builtin) (cs : List Char) : Prop :=
  let s := Template.scan none false cs
  s.isPlain = true ∧ s.pieces = s.pieces.dropLast ++ [.char '\n'] ∧ IsComponent target b s.pieces.dropLast

instance (target : Target) (b : Builtin) (cs : List Char) : Decidable (IsComponentText target b cs) :=
  inferInstanceAs (Decidable (_ ∧ _ ∧ _))

theorem toList_lines (l : List String) :
    (Template.Embedded.lines l).toList = l.flatMap fun s => s.toList ++ ['\n'] := String.toList_ofList

/-- The pieces of a component without the end of its last line. -/
def componentPieces (target : Target) (type : String) : List Piece :=
  match (Template.Collection.embedded target).get? (target.componentTemplate type) with
  | none => []
  | some template => (Template.scan none false template.source.toList).pieces.dropLast

/-! ## Templates of programs -/

/-- The names that the template of a program declares. -/
def frameNames : Target → List String
  | .desktop => ["expName", "expInfo", "dlg", "thisExp", "win", "defaultKeyboard", "globalClock"]
  | .browser => ["expName", "expInfo", "psychoJS", "globalClock", "sleep", "win", "thisExp"]

/-- The pieces before the line of the components. -/
def piecesBefore (pieces : List Piece) : List Piece :=
  (pieces.takeWhile (· != plainField "components")).dropLast

/-- The pieces behind the line of the components. -/
def piecesBehind (pieces : List Piece) : List Piece :=
  (pieces.dropWhile (· != plainField "components")).drop 2

/-- What the template of a program promises, by its pieces on either side of
the line of the components. -/
structure IsFrame (target : Target) (before behind : List Piece) : Prop where
  legibleBefore : Legible target before
  legibleBehind : Legible target behind
  bound : ∀ piece ∈ before ++ behind, piece.isKeyed ["expName"] = true
  starts : (pieceLines before).getLast? = some (target.sectionStart.toList.map .char)
  outside : ∀ line ∈ (pieceLines before).dropLast, differs target.sectionStart.toList line = true
  ends : (pieceLines behind).take 2 = [[], target.sectionEnd.toList.map .char]
  unmarked : ∀ line ∈ pieceLines before ++ pieceLines behind,
    differs target.nodeMarker.toList line = true
  declaresBefore : codeNames target before = (frameNames target).map (·.toList.map .char)
  declaresBehind : codeNames target behind = []

instance (target : Target) (before behind : List Piece) : Decidable (IsFrame target before behind) :=
  decidable_of_iff
    (Legible target before ∧ Legible target behind ∧
      (∀ piece ∈ before ++ behind, piece.isKeyed ["expName"] = true) ∧
      (pieceLines before).getLast? = some (target.sectionStart.toList.map .char) ∧
      (∀ line ∈ (pieceLines before).dropLast, differs target.sectionStart.toList line = true) ∧
      (pieceLines behind).take 2 = [[], target.sectionEnd.toList.map .char] ∧
      (∀ line ∈ pieceLines before ++ pieceLines behind,
        differs target.nodeMarker.toList line = true) ∧
      codeNames target before = (frameNames target).map (·.toList.map .char) ∧
      codeNames target behind = [])
    ⟨fun ⟨h1, h2, h3, h4, h5, h6, h7, h8, h9⟩ => ⟨h1, h2, h3, h4, h5, h6, h7, h8, h9⟩,
      fun ⟨h1, h2, h3, h4, h5, h6, h7, h8, h9⟩ => ⟨h1, h2, h3, h4, h5, h6, h7, h8, h9⟩⟩

/-- A text that is read without a fault, and has the components on a line of their own. -/
def IsFrameText (target : Target) (cs : List Char) : Prop :=
  let s := Template.scan none false cs
  s.isPlain = true ∧
    s.pieces = piecesBefore s.pieces ++
      .char '\n' :: plainField "components" :: .char '\n' :: piecesBehind s.pieces ∧
    IsFrame target (piecesBefore s.pieces) (piecesBehind s.pieces)

instance (target : Target) (cs : List Char) : Decidable (IsFrameText target cs) :=
  inferInstanceAs (Decidable (_ ∧ _ ∧ _))

/-- The pieces of a program. -/
def framePieces (target : Target) : List Piece :=
  match (Template.Collection.embedded target).assembly? with
  | none => []
  | some template => (Template.scan none false template.source.toList).pieces

/-! ## The embedded texts -/

/-- Every built-in kind has a template for every target, and it is that of a component. -/
theorem embedded_component (target : Target) {b : Builtin} (hb : b ∈ builtins) :
    ∃ template, (Template.Collection.embedded target).get? (target.componentTemplate b.type) =
        some template ∧ IsComponentText target b template.source.toList := by
  simp only [builtins, List.mem_cons, List.not_mem_nil, or_false] at hb
  rcases hb with rfl | rfl | rfl | rfl <;> cases target
  all_goals
    refine ⟨_, rfl, ?_⟩
    simp only [Template.Embedded.desktopText, Template.Embedded.desktopImage,
      Template.Embedded.desktopKeyboard, Template.Embedded.desktopGpio, Template.Embedded.browserText,
      Template.Embedded.browserImage, Template.Embedded.browserKeyboard,
      Template.Embedded.browserGpio, toList_lines, List.flatMap_cons, List.flatMap_nil]
    repeat rw [String.toList_ofList]
    decide +kernel

theorem embedded_frame (target : Target) :
    ∃ template, (Template.Collection.embedded target).assembly? = some template ∧
      IsFrameText target template.source.toList := by
  cases target
  all_goals
    refine ⟨_, rfl, ?_⟩
    simp only [Template.Embedded.desktopExperiment, Template.Embedded.browserExperiment, toList_lines,
      List.flatMap_cons, List.flatMap_nil]
    repeat rw [String.toList_ofList]
    decide +kernel

theorem isComponent (target : Target) {b : Builtin} (hb : b ∈ builtins) :
    IsComponent target b (componentPieces target b.type) := by
  obtain ⟨template, ht, -, -, hc⟩ := embedded_component target hb
  rw [componentPieces, ht]
  exact hc

theorem isFrame (target : Target) :
    IsFrame target (piecesBefore (framePieces target)) (piecesBehind (framePieces target)) := by
  obtain ⟨template, ht, -, -, hf⟩ := embedded_frame target
  rw [framePieces, ht]
  exact hf

theorem isReserved_frameNames (target : Target) :
    ∀ name ∈ frameNames target, target.isReserved name = true := by
  cases target <;> decide

end FlowScript
