/-
The names that a program calls. They are those of the frame, those of the
templates of its nodes and, in Python, one more for each node that waits for
keys without an end (`mem_calledNames_source`). Most of them no node may
have, but not all: a report without findings still lets a node take the name
of a function that its own piece or another one calls
(`mem_calledNames_of_clean`).
-/
import FlowScript.Proofs.Declarations
import FlowScript.Proofs.ValueCalls

namespace FlowScript

open Template (Piece Values spelled pieceLines)
open Code

variable {target : Target}

/-! ## Templates -/

/-- Whether a piece is a field for some key. -/
def Template.Piece.asks (key : String) : Piece → Bool
  | .char _ => false
  | .field f => f.key == key

/-- What the calls of pieces are: the names that they call themselves, and
whether there is how long to wait among the values in them. -/
structure CallsNames (target : Target) (pieces : List Piece) (names : List String) (waits : Bool) : Prop where
  clear : ∀ line ∈ pieceLines (codePieces target pieces), clearCalls (tokens Piece.isPart line) = true
  calls : callPieces target pieces = names.map (·.toList.map .char)
  waits : (pieceLines (codePieces target pieces)).any (·.any (Piece.asks "max_wait")) = waits

instance (target : Target) (pieces : List Piece) (names : List String) (waits : Bool) :
    Decidable (CallsNames target pieces names waits) :=
  decidable_of_iff
    ((∀ line ∈ pieceLines (codePieces target pieces), clearCalls (tokens Piece.isPart line) = true) ∧
      callPieces target pieces = names.map (·.toList.map .char) ∧
      (pieceLines (codePieces target pieces)).any (·.any (Piece.asks "max_wait")) = waits)
    ⟨fun ⟨h1, h2, h3⟩ => ⟨h1, h2, h3⟩, fun ⟨h1, h2, h3⟩ => ⟨h1, h2, h3⟩⟩

/-- The names that the template of a component calls. -/
def componentCalls (target : Target) (type : String) : List String :=
  match target with
  | .desktop =>
    if type = "keyboard" then ["int"] else if type = "gpio" then ["DigitalOutputDevice"] else []
  | .browser => if type = "keyboard" then ["sleep", "Number"] else ["sleep"]

/-- The names that the template of a program calls before its components. -/
def frameCalls : Target → List String
  | .desktop => []
  | .browser => ["PsychoJS", "Promise", "setTimeout", "runExperiment"]

/-- The names that the template of a program calls behind its components. -/
def frameCallsBehind : Target → List String
  | .desktop => []
  | .browser => ["runExperiment"]

theorem embedded_componentCalls (target : Target) {b : Builtin} (hb : b ∈ builtins) :
    ∃ template, (Template.Collection.embedded target).get? (target.componentTemplate b.type) =
        some template ∧
      CallsNames target (Template.scan none false template.source.toList).pieces.dropLast
        (componentCalls target b.type) (b.type == "keyboard") := by
  simp only [builtins, List.mem_cons, List.not_mem_nil, or_false] at hb
  rcases hb with rfl | rfl | rfl | rfl <;> cases target
  all_goals
    refine ⟨_, rfl, ?_⟩
    simp only [Template.Embedded.desktopText, Template.Embedded.desktopImage,
      Template.Embedded.desktopKeyboard, Template.Embedded.desktopGpio, Template.Embedded.browserText,
      Template.Embedded.browserImage, Template.Embedded.browserKeyboard,
      Template.Embedded.browserGpio, toList_lines, List.flatMap_cons, List.flatMap_nil]
    repeat rw [String.toList_ofList]
    decide +kernel

theorem embedded_frameCalls (target : Target) :
    ∃ template, (Template.Collection.embedded target).assembly? = some template ∧
      CallsNames target (piecesBefore (Template.scan none false template.source.toList).pieces)
        (frameCalls target) false ∧
      CallsNames target (piecesBehind (Template.scan none false template.source.toList).pieces)
        (frameCallsBehind target) false := by
  cases target
  all_goals
    refine ⟨_, rfl, ?_⟩
    simp only [Template.Embedded.desktopExperiment, Template.Embedded.browserExperiment, toList_lines,
      List.flatMap_cons, List.flatMap_nil]
    repeat rw [String.toList_ofList]
    decide +kernel

theorem callsNames_component (target : Target) {b : Builtin} (hb : b ∈ builtins) :
    CallsNames target (componentPieces target b.type) (componentCalls target b.type)
      (b.type == "keyboard") := by
  obtain ⟨template, ht, h⟩ := embedded_componentCalls target hb
  rw [componentPieces, ht]
  exact h

theorem callsNames_frame (target : Target) :
    CallsNames target (piecesBefore (framePieces target)) (frameCalls target) false ∧
      CallsNames target (piecesBehind (framePieces target)) (frameCallsBehind target) false := by
  obtain ⟨template, ht, h⟩ := embedded_frameCalls target
  rw [framePieces, ht]
  exact h

theorem mem_map_chars {name : List Char} {names : List String} :
    name.map Piece.char ∈ names.map (·.toList.map .char) ↔ name ∈ names.map String.toList := by
  simp only [List.mem_map]
  exact exists_congr fun s => and_congr_right fun _ => ⟨map_char_injective, fun he => by rw [he]⟩

theorem any_asks_iff {key : String} {line : List Piece} :
    line.any (Piece.asks key) = true ↔ ∃ f, Piece.field f ∈ line ∧ f.key = key := by
  rw [List.any_eq_true]
  constructor
  · rintro ⟨piece, hpiece, hasks⟩
    cases piece with
    | char c => cases hasks
    | field f => exact ⟨f, hpiece, beq_iff_eq.1 hasks⟩
  · rintro ⟨f, hf, hkey⟩
    exact ⟨_, hf, beq_iff_eq.2 hkey⟩

theorem CallsNames.waits_iff {pieces : List Piece} {names : List String} {waits : Bool}
    (h : CallsNames target pieces names waits) :
    waits = true ↔ ∃ line ∈ pieceLines (codePieces target pieces), ∃ f, Piece.field f ∈ line ∧
      f.key = "max_wait" := by
  rw [← h.waits, List.any_eq_true]
  simp only [any_asks_iff]

/-! ## Pieces of nodes -/

/-- A node that waits for keys for as long as it takes. -/
def WaitsForever (table : Dict Json) (node : Node) : Prop :=
  node.type = "keyboard" ∧ ∃ duration,
    Component.Properties.nonNegativeOr
      { entry := Node.properties node.id table, data := node.resolved.data } "duration" .zero = .ok duration ∧
    duration.isPositive = false

theorem findsWaits_filled : ∀ p ∈ filled, FindsWaits p.2 :=
  forall_mem_filled (P := fun values _ => FindsWaits values) findsWaits_textValues
    findsWaits_imageValues findsWaits_keyboardValues findsWaits_gpioValues

/-- Among the values in pieces, only how long to wait can call a name. -/
theorem calledNamesOf_value {b : Builtin} (hb : b ∈ builtins) {p : Component.Properties}
    {context : Template.Context} (hw : WaitsOnly target p context) {line : List Piece}
    (hline : line ∈ pieceLines (codePieces target (componentPieces target b.type))) {f : Template.Field}
    (hf : Piece.field f ∈ line) (hrole : Role.ofKey f.key ≠ .identifier) {name : List Char}
    (hname : name ∈ calledNamesOf .text (code target .code (context.values f.key))) :
    f.key = "max_wait" := by
  refine Decidable.byContradiction fun hkey => ?_
  have hremark : Role.ofKey f.key ≠ .remark :=
    (mem_of_mem_keepPieces (isComponent target hb).legible.keepPieces_eq (mem_of_mem_pieceLines hline hf)).2
  have hexpression : Role.ofKey f.key = .expression := by
    cases hr : Role.ofKey f.key with
    | identifier => exact absurd hr hrole
    | remark => exact absurd hr hremark
    | expression => rfl
  cases hvalue : context.get? f.key with
  | none =>
    have hnil : context.values f.key = [] := by simp [Template.Context.values, hvalue]
    rw [hnil] at hname
    cases hname
  | some value =>
    rw [Template.Context.values_of_get? hvalue,
      (hw.noCall f.key value hvalue hexpression hkey).calledNamesOf_eq_nil] at hname
    cases hname

/-- What the values in the template of a node call is what it waits for, if it waits for keys. -/
theorem mem_calledNamesOf_values {b : Builtin} (hb : b ∈ builtins) {p : Component.Properties}
    {context : Template.Context} (hw : WaitsOnly target p context) {name : List Char} :
    (∃ line ∈ pieceLines (codePieces target (componentPieces target b.type)), ∃ f, Piece.field f ∈ line ∧
        Role.ofKey f.key ≠ .identifier ∧
        name ∈ calledNamesOf .text (code target .code (context.values f.key))) ↔
      b.type = "keyboard" ∧ name ∈ calledNamesOf .text (code target .code (context.values "max_wait")) := by
  have hwaits := (callsNames_component target hb).waits_iff
  rw [beq_iff_eq] at hwaits
  constructor
  · rintro ⟨line, hline, f, hf, hrole, hname⟩
    have hkey := calledNamesOf_value hb hw hline hf hrole hname
    exact ⟨hwaits.2 ⟨line, hline, f, hf, hkey⟩, hkey ▸ hname⟩
  · rintro ⟨hkeyboard, hname⟩
    obtain ⟨line, hline, f, hf, hkey⟩ := hwaits.1 hkeyboard
    exact ⟨line, hline, f, hf, by rw [hkey]; decide, by rwa [hkey]⟩

theorem maxWait_mem : ∀ b ∈ builtins, b.type = "keyboard" → "max_wait" ∈ baseKeys ++ b.keys := by decide

/-! ## Texts -/

theorem calledNamesOf_nil : calledNamesOf .text [] = [] := rfl

theorem calledIn_spacedOut {texts : List (List Char)} (h : ∀ t ∈ texts, Lined target t) :
    calledIn target (spacedOut texts) = texts.flatMap (calledIn target) := by
  rw [calledIn, (lined_spacedOut h).2, flatMap_spacedOut calledNamesOf_nil, List.flatMap_map]
  rfl

theorem calledIn_parts {before body behind : List Char} (hbefore : Lined target before)
    (hbody : Lined target body) :
    calledIn target (before ++ '\n' :: (body ++ '\n' :: behind)) =
      calledIn target before ++ (calledIn target body ++ calledIn target behind) := by
  rw [calledIn, code_parts hbefore hbody, List.splitOn_append_cons_self, List.splitOn_append_cons_self,
    List.flatMap_append, List.flatMap_append]
  rfl

theorem mem_map_toList {name : String} {names : List String} :
    name.toList ∈ names.map String.toList ↔ name ∈ names :=
  ⟨fun h => by
    obtain ⟨other, hother, he⟩ := List.mem_map.1 h
    rwa [← String.toList_inj.1 he], List.mem_map_of_mem⟩

/-- Pieces whose values call nothing call what they call themselves. -/
theorem CallsNames.mem_calledIn {pieces : List Piece} {names : List String} {waits : Bool}
    (h : CallsNames target pieces names waits) (hl : Legible target pieces) {values : Values}
    (hf : Fit target values pieces)
    (hv : ∀ f, Piece.field f ∈ pieces → NoCall target (values f.key)) {called : List Char} :
    called ∈ calledIn target (spelled values pieces) ↔ called ∈ names.map String.toList := by
  rw [hl.mem_calledIn hf h.clear, h.calls, mem_map_chars, or_iff_left]
  rintro ⟨line, hline, f, hfield, -, hcalled⟩
  have hmem := mem_of_mem_keepPieces hl.keepPieces_eq (mem_of_mem_pieceLines hline hfield)
  rw [(hv f hmem.1).calledNamesOf_eq_nil] at hcalled
  cases hcalled

namespace Compiler

variable {name : String} {graph : Graph} {table : Dict Json} {maxNodes : Nat} {report : Report}

/-- The piece of a node calls the names of its template, and one more in
Python if it waits for keys without an end. -/
theorem mem_calledIn_of_emitted {node : Node} {text : String} {names : List String}
    (h : (upTo target maxNodes).outcome table node = .emitted text names) {called : List Char} :
    called ∈ calledIn target (Program.dropNewlines text).toList ↔
      called ∈ (componentCalls target node.type).map String.toList ∨
        target = .desktop ∧ called = "float".toList ∧ WaitsForever table node := by
  cases becomes_iff.2 h with
  | emitted hk he hr =>
    rw [upTo_palette] at hk
    rw [upTo_templates] at hr
    obtain ⟨⟨b, values⟩, hp, htype, -, hrender⟩ := get?_builtin_filled hk
    have hb := mem_builtins_of_mem_filled hp
    have hv := finds_filled _ hp
    have hw := findsWaits_filled _ hp
    rw [hrender] at hr
    obtain ⟨context, hvalues, htext⟩ :=
      (fillTemplate_eq_ok_iff hb hv node.isIdentifier_resolved _).1 hr
    have hspells := spells_of_context hb hv node.isIdentifier_resolved hvalues htext
    have hc := callsNames_component target hb
    have hfill := hv _ _ _ _ node.isIdentifier_resolved hvalues
    have hwaits := hw _ _ _ _ hvalues
    rw [← htype, hspells.dropNewlines hb,
      (isComponent target hb).legible.mem_calledIn hspells.fit hc.clear, hc.calls, mem_map_chars,
      mem_calledNamesOf_values hb hwaits, WaitsForever, ← htype]
    refine or_congr_right ?_
    constructor
    · rintro ⟨hkeyboard, hname⟩
      rw [hwaits.mem_calledNamesOf_wait (hfill.bound _ (maxWait_mem b hb hkeyboard))] at hname
      exact ⟨hname.1, hname.2.1, hkeyboard, hname.2.2⟩
    · rintro ⟨htarget, hname, hkeyboard, hforever⟩
      rw [hwaits.mem_calledNamesOf_wait (hfill.bound _ (maxWait_mem b hb hkeyboard))]
      exact ⟨hkeyboard, htarget, hname, hforever⟩

/-! ## Programs -/

theorem mem_fragments_iff {c : Compiler} (h : c.compileGraph name graph table = .ok report)
    {P : String → Prop} :
    (∃ f ∈ report.fragments, P f.code) ↔
      ∃ node ∈ graph.nodes, ∃ text names, c.outcome table node = .emitted text names ∧ P text := by
  rw [fragments_of_compileGraph h]
  constructor
  · rintro ⟨f, hf, hP⟩
    obtain ⟨p, hp, hfragment⟩ := List.mem_filterMap.1 hf
    obtain ⟨node, hnode, rfl⟩ := List.mem_map.1 hp
    cases ho : c.outcome table node with
    | unknownType => rw [ho] at hfragment; cases hfragment
    | failed cause => rw [ho] at hfragment; cases hfragment
    | emitted text names =>
      rw [ho] at hfragment
      cases hfragment
      exact ⟨node, hnode, text, names, ho, hP⟩
  · rintro ⟨node, hnode, text, names, ho, hP⟩
    refine ⟨{ nodeId := node.id, code := text }, List.mem_filterMap.2 ⟨_, List.mem_map_of_mem hnode, ?_⟩, hP⟩
    rw [ho]
    rfl

/-- A program calls the names of its frame, and for each node those of its
template; in Python, one more if the node waits for keys without an end. -/
theorem mem_calledNames_source (h : (upTo target maxNodes).compileGraph name graph table = .ok report)
    {called : String} :
    called ∈ calledNames target report.source ↔
      called ∈ frameCalls target ++ frameCallsBehind target ∨
        ∃ node ∈ (upTo target maxNodes).emitted table graph.nodes,
          called ∈ componentCalls target node.type ∨
            target = .desktop ∧ called = "float" ∧ WaitsForever table node := by
  obtain ⟨values, hname, hbefore, hbehind, hsource⟩ := named_source_of_compileGraph h
  have hframe := isFrame target
  obtain ⟨hcallsBefore, hcallsBehind⟩ := callsNames_frame target
  have hvalue : ∀ f, Piece.field f ∈ piecesBefore (framePieces target) ++ piecesBehind (framePieces target) →
      NoCall target (values f.key) := by
    intro f hf
    rw [key_of_frame hf, hname]
    exact noCall_textLiteral name
  have hlined : ∀ t ∈ report.fragments.map (fun f => (Program.dropNewlines f.code).toList),
      Lined target t := by
    intro t ht
    obtain ⟨f, hf, rfl⟩ := List.mem_map.1 ht
    obtain ⟨node, -, b, hb, values, hspells⟩ := spells_of_mem_fragments h hf
    exact hspells.lined hb
  have hnodes : called.toList ∈ (report.fragments.map fun f => (Program.dropNewlines f.code).toList).flatMap
        (calledIn target) ↔
      ∃ node ∈ (upTo target maxNodes).emitted table graph.nodes,
        called ∈ componentCalls target node.type ∨
          target = .desktop ∧ called = "float" ∧ WaitsForever table node := by
    rw [List.flatMap_map, List.mem_flatMap,
      mem_fragments_iff (P := fun text => called.toList ∈ calledIn target (Program.dropNewlines text).toList) h]
    refine exists_congr fun node => ?_
    rw [mem_emitted, and_assoc]
    refine and_congr_right fun _ => ?_
    constructor
    · rintro ⟨text, names, ho, hcalled⟩
      rw [mem_calledIn_of_emitted ho, mem_map_toList, String.toList_inj] at hcalled
      exact ⟨⟨text, names, ho⟩, hcalled⟩
    · rintro ⟨⟨text, names, ho⟩, hcalled⟩
      rw [← mem_map_toList, ← String.toList_inj] at hcalled
      exact ⟨text, names, ho, (mem_calledIn_of_emitted ho).2 hcalled⟩
  rw [mem_calledNames, hsource, toList_body,
    calledIn_parts (hframe.legibleBefore.lined hbefore) (lined_spacedOut hlined).1, calledIn_spacedOut hlined,
    List.mem_append, List.mem_append, hnodes,
    hcallsBefore.mem_calledIn hframe.legibleBefore hbefore fun f hf => hvalue f (List.mem_append_left _ hf),
    hcallsBehind.mem_calledIn hframe.legibleBehind hbehind fun f hf => hvalue f (List.mem_append_right _ hf),
    mem_map_toList, mem_map_toList, List.mem_append, or_left_comm, or_comm]

theorem ne_of_free {name other : String} (hfree : target.isReserved name = false)
    (hother : target.isReserved other = true) : name ≠ other := by
  rintro rfl
  rw [hother] at hfree
  cases hfree

/-- The name that the template of key presses calls and no other template does. -/
def keyCall : Target → String
  | .desktop => "int"
  | .browser => "Number"

/-- Of the names that templates of components call, a node may only have one. -/
theorem mem_componentCalls_of_free {name : String} (hfree : target.isReserved name = false)
    (type : String) : name ∈ componentCalls target type ↔ name = keyCall target ∧ type = "keyboard" := by
  cases target with
  | desktop =>
    have hdevice := ne_of_free hfree (show Target.desktop.isReserved "DigitalOutputDevice" = true by decide)
    by_cases hkeyboard : type = "keyboard"
    · simp [componentCalls, keyCall, hkeyboard]
    · by_cases hgpio : type = "gpio" <;> simp [componentCalls, hkeyboard, hgpio, hdevice]
  | browser =>
    have hsleep := ne_of_free hfree (show Target.browser.isReserved "sleep" = true by decide)
    by_cases hkeyboard : type = "keyboard" <;> simp [componentCalls, keyCall, hkeyboard, hsleep]

/-- **The names of nodes that a program without findings calls.** In Python
these are `int`, where a node waits for keys, and `float`, where one waits
without an end; in JavaScript the two that the frame calls before any node has
a name, and `Number`, where a node waits for keys. No other name of a node is
called. -/
theorem mem_calledNames_of_clean (h : (upTo target maxNodes).compileGraph name graph table = .ok report)
    (hclean : report.findings = []) {node : Node} (hnode : node ∈ graph.nodes) {bound : String}
    (hbound : bound ∈ ((upTo target maxNodes).outcome table node).names) :
    bound ∈ calledNames target report.source ↔
      match target with
      | .desktop => bound = "int" ∧ (∃ other ∈ graph.nodes, other.type = "keyboard") ∨
          bound = "float" ∧ ∃ other ∈ graph.nodes, WaitsForever table other
      | .browser => bound = "Promise" ∨ bound = "setTimeout" ∨
          bound = "Number" ∧ ∃ other ∈ graph.nodes, other.type = "keyboard" := by
  obtain ⟨hnodes, -⟩ := (findings_eq_nil_iff h).1 hclean
  have hfree : target.isReserved bound = false := (hnodes node hnode).free bound (binds_iff.2 hbound)
  rw [mem_calledNames_source h, emitted_eq_of_clean hnodes]
  simp only [mem_componentCalls_of_free hfree]
  cases target with
  | desktop =>
    constructor
    · rintro (hframe | ⟨other, hother, ⟨rfl, hkeyboard⟩ | ⟨-, rfl, hforever⟩⟩)
      · cases hframe
      · exact .inl ⟨rfl, other, hother, hkeyboard⟩
      · exact .inr ⟨rfl, other, hother, hforever⟩
    · rintro (⟨rfl, other, hother, hkeyboard⟩ | ⟨rfl, other, hother, hforever⟩)
      · exact .inr ⟨other, hother, .inl ⟨rfl, hkeyboard⟩⟩
      · exact .inr ⟨other, hother, .inr ⟨rfl, rfl, hforever⟩⟩
  | browser =>
    have hwindow := ne_of_free hfree (show Target.browser.isReserved "PsychoJS" = true by decide)
    have hrun := ne_of_free hfree (show Target.browser.isReserved "runExperiment" = true by decide)
    have hframe : bound ∈ frameCalls .browser ++ frameCallsBehind .browser ↔
        bound = "Promise" ∨ bound = "setTimeout" := by
      simp [frameCalls, frameCallsBehind, hwindow, hrun]
    rw [hframe, or_assoc]
    refine or_congr_right (or_congr_right ?_)
    constructor
    · rintro ⟨other, hother, ⟨rfl, hkeyboard⟩ | ⟨htarget, -⟩⟩
      · exact ⟨rfl, other, hother, hkeyboard⟩
      · cases htarget
    · rintro ⟨rfl, other, hother, hkeyboard⟩
      exact ⟨other, hother, .inl ⟨rfl, hkeyboard⟩⟩

theorem mem_calledNames_keyNode :
    ∃ report, (upTo .desktop 1).compileGraph "e" { nodes := [keyNode "int"], edges := [] } [] = .ok report ∧
      report.findings = [] ∧ "int" ∈ ((upTo .desktop 1).outcome [] (keyNode "int")).names ∧
      "int" ∈ calledNames .desktop report.source := by
  obtain ⟨report, h⟩ := @compileGraph_upTo .desktop { nodes := [keyNode "int"], edges := [] } 1 "e" []
    (by decide)
  have hlabel : Component.keyboardKind.boundNames (keyNode "int").resolved.label = ["int", "int_keys"] := by
    decide
  have hclean := findings_keyNode h (hlabel ▸ by decide)
  have hbound : "int" ∈ ((upTo .desktop 1).outcome [] (keyNode "int")).names := by
    rw [names_keyNode, hlabel]
    exact List.mem_cons_self
  refine ⟨report, h, hclean, hbound, (mem_calledNames_of_clean h hclean List.mem_cons_self hbound).2 ?_⟩
  exact .inl ⟨rfl, _, List.mem_cons_self, rfl⟩

/-- A node that waits for keys without an end may be called what its own wait calls. -/
theorem calledNames_float :
    ∃ report, (upTo .desktop 1).compileGraph "e" { nodes := [keyNode "float"], edges := [] } [] = .ok report ∧
      report.findings = [] ∧ "float" ∈ ((upTo .desktop 1).outcome [] (keyNode "float")).names ∧
      "float" ∈ calledNames .desktop report.source := by
  obtain ⟨report, h⟩ := @compileGraph_upTo .desktop { nodes := [keyNode "float"], edges := [] } 1 "e" []
    (by decide)
  have hlabel : Component.keyboardKind.boundNames (keyNode "float").resolved.label =
      ["float", "float_keys"] := by decide
  have hclean := findings_keyNode h (hlabel ▸ by decide)
  have hemitted := emitted_eq_of_clean ((findings_eq_nil_iff h).1 hclean).1
  refine ⟨report, h, hclean, ?_, (mem_calledNames_source h).2 (.inr ⟨keyNode "float", ?_, .inr ⟨rfl, rfl, ?_⟩⟩)⟩
  · rw [names_keyNode, hlabel]
    exact List.mem_cons_self
  · rw [hemitted]
    exact List.mem_cons_self
  · exact ⟨rfl, .zero, rfl, rfl⟩

end Compiler

end FlowScript
