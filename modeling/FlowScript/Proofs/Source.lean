/-
The text of a program that is compiled with what comes with the library. The
piece of a node spells the template of its type (`Spells`), the pieces stand
between the two parts of the frame (`source_of_compileGraph`), and what is
found line by line in the whole is found line by line in these parts.
-/
import FlowScript.Proofs.Embedded
import FlowScript.Proofs.Outcome

namespace FlowScript

open Template (Piece Values spelled pieceLines)
open Code

variable {target : Target}

theorem Node.isIdentifier_resolved (node : Node) :
    Identifier.isIdentifier node.resolved.label = true :=
  Identifier.isIdentifier_sanitize node.displayLabel

/-! ## Pieces of nodes -/

/-- A text is the template of a built-in kind, filled for a node. -/
structure Spells (target : Target) (node : Node.Resolved) (b : Builtin) (values : Values)
    (code : String) : Prop where
  text : code.toList = spelled values (componentPieces target b.type) ++ ['\n']
  fit : Fit target values (componentPieces target b.type)
  label : values "label" = node.label.toList
  displayLabel : values "display_label" = (Identifier.commentSafe node.displayLabel).toList
  type : values "node_type" = (Identifier.commentSafe node.type).toList

theorem fillTemplate_eq_ok_iff {b : Builtin} (hb : b ∈ builtins) {values : Component.Filling}
    (hv : Finds values b.keys) {node : Node.Resolved} (hid : Identifier.isIdentifier node.label = true)
    (entry : Dict Json) {code : String} :
    Component.fillTemplate b.type values node entry (.embedded target) = .ok code ↔
      ∃ context, values node { entry, data := node.data } target = .ok context ∧
        code.toList = spelled context.values (componentPieces target b.type) ++ ['\n'] := by
  obtain ⟨template, ht, hplain, hends, hc⟩ := embedded_component target hb
  have hpieces : (Template.scan none false template.source.toList).pieces =
      componentPieces target b.type ++ [.char '\n'] := by
    rw [componentPieces, ht]
    exact hends
  have hrender : ∀ {context}, values node { entry, data := node.data } target = .ok context →
      (template.render context = .ok code ↔
        code.toList = spelled context.values (componentPieces target b.type) ++ ['\n']) := by
    intro context hvalues
    have hfill := hv _ _ _ _ hid hvalues
    rw [Template.render_eq_ok_iff hplain, hpieces, Template.spelled_append, and_iff_right]
    · rfl
    intro piece hp
    cases piece with
    | char c => exact trivial
    | field f =>
      have hkeyed := hc.bound (.field f) (by
        have hmem := (List.mem_append.1 hp).resolve_right (by simp)
        rwa [componentPieces, ht] at hmem)
      exact hfill.bound f.key (by simpa [Piece.isKeyed] using hkeyed)
  have htarget : (Template.Collection.embedded target).target = target := rfl
  simp only [Component.fillTemplate, htarget, ht]
  cases hvalues : values node { entry, data := node.data } target with
  | error cause => simp
  | ok context =>
    simp only [Except.ok.injEq, exists_eq_left', ← hrender hvalues]
    cases template.render context <;> simp

/-- A kind renders a node as soon as it finds values for it. -/
theorem render_filling {b : Builtin} (hb : b ∈ builtins) {values : Component.Filling}
    (hv : Finds values b.keys) (boundNames : String → List String) {node : Node.Resolved}
    (hid : Identifier.isIdentifier node.label = true) {entry : Dict Json} {context : Template.Context}
    (hc : values node { entry, data := node.data } target = .ok context) :
    ∃ code, (Component.Kind.filling b.type boundNames values).render node entry (.embedded target) =
      .ok code := by
  obtain ⟨code, hcode⟩ : ∃ code : String,
      code.toList = spelled context.values (componentPieces target b.type) ++ ['\n'] :=
    ⟨String.ofList _, String.toList_ofList⟩
  exact ⟨code, (fillTemplate_eq_ok_iff hb hv hid entry).2 ⟨context, hc, hcode⟩⟩

/-- A text that spells the template of a kind with the values it finds for a node. -/
theorem spells_of_context {b : Builtin} (hb : b ∈ builtins) {values : Component.Filling}
    (hv : Finds values b.keys) {node : Node.Resolved} (hid : Identifier.isIdentifier node.label = true)
    {p : Component.Properties} {context : Template.Context} (hvalues : values node p target = .ok context)
    {code : String} (htext : code.toList = spelled context.values (componentPieces target b.type) ++ ['\n']) :
    Spells target node b context.values code := by
  have hfill := hv _ _ _ _ hid hvalues
  have hd := hfill.describes
  refine ⟨htext, fun f hf => ?_, ?_, ?_, ?_⟩
  · have hkeyed := (isComponent target hb).bound _ hf
    obtain ⟨value, hvalue⟩ :=
      Option.isSome_iff_exists.1 (hfill.bound f.key (by simpa [Piece.isKeyed] using hkeyed))
    rw [Template.Context.values_of_get? hvalue]
    exact hd.suits f.key value hvalue
  · exact Template.Context.values_of_get? hd.label
  · exact Template.Context.values_of_get? hd.displayLabel
  · exact Template.Context.values_of_get? hd.type

theorem spells_of_render {b : Builtin} (hb : b ∈ builtins) {kind : Component.Kind} (hk : b.Describes kind)
    {node : Node.Resolved} (hid : Identifier.isIdentifier node.label = true) {entry : Dict Json}
    {code : String} (h : kind.render node entry (.embedded target) = .ok code) :
    ∃ values, Spells target node b values code := by
  obtain ⟨values, hrender, hv⟩ := hk.render
  rw [hrender] at h
  obtain ⟨context, hvalues, htext⟩ := (fillTemplate_eq_ok_iff hb hv hid entry).1 h
  exact ⟨context.values, spells_of_context hb hv hid hvalues htext⟩

/-- The end of the last line is all that is dropped from the piece of a node. -/
theorem Spells.dropNewlines {node : Node.Resolved} {b : Builtin} (hb : b ∈ builtins) {values : Values}
    {code : String} (h : Spells target node b values code) :
    (Program.dropNewlines code).toList = spelled values (componentPieces target b.type) := by
  have hlast := (isComponent target hb).last
  cases hl : (componentPieces target b.type).getLast? with
  | none => rw [hl] at hlast; cases hlast
  | some piece =>
  rw [hl, Option.any_some] at hlast
  obtain ⟨front, hfront⟩ := List.getLast?_eq_some_iff.1 hl
  cases piece with
  | field f => cases hlast
  | char c =>
    have hc : (c == '\n') = false := by simpa [Piece.isChar, Piece.isNewline] using hlast
    have hpieces : spelled values (componentPieces target b.type) = spelled values front ++ [c] := by
      rw [hfront, Template.spelled_append]
      rfl
    rw [Program.dropNewlines, String.toList_ofList, h.text, hpieces, Text.dropEnd]
    simp [hc]

/-! ## Emitted nodes -/

namespace Compiler

/-- The compiler for a target with all that comes with the library, for
graphs of at most so many nodes. -/
def upTo (target : Target) (maxNodes : Nat) : Compiler := { builtin target with maxNodes }

theorem upTo_templates (maxNodes : Nat) : (upTo target maxNodes).templates = .embedded target := rfl

theorem upTo_palette (maxNodes : Nat) : (upTo target maxNodes).palette = Component.builtin := rfl

/-- The nodes that become pieces of the program. -/
def emitted (c : Compiler) (table : Dict Json) (nodes : List Node) : List Node :=
  nodes.filter fun node => (c.outcome table node).isEmitted

variable {c : Compiler} {table : Dict Json} {maxNodes : Nat}

theorem mem_emitted {nodes : List Node} {node : Node} :
    node ∈ c.emitted table nodes ↔
      node ∈ nodes ∧ ∃ code names, c.outcome table node = .emitted code names := by
  rw [emitted, List.mem_filter]
  refine and_congr_right fun _ => ?_
  cases c.outcome table node <;> simp [Outcome.isEmitted]

/-- The fragments are those of the emitted nodes, in order. -/
theorem map_fragments {β : Type} {nodes : List Node} {g : Fragment → β} {h : Node → β}
    (hg : ∀ node ∈ nodes, ∀ code names, c.outcome table node = .emitted code names →
      g { nodeId := node.id, code } = h node) :
    ((c.outcomes table nodes).filterMap fragment?).map g = (c.emitted table nodes).map h := by
  induction nodes with
  | nil => rfl
  | cons node nodes ih =>
    obtain ⟨hnode, hnodes⟩ := List.forall_mem_cons.1 hg
    have ih := ih hnodes
    rw [outcomes, List.map_cons, emitted]
    cases ho : c.outcome table node with
    | unknownType =>
      rw [List.filterMap_cons_none rfl, List.filter_cons_of_neg (by simp [ho, Outcome.isEmitted])]
      exact ih
    | failed cause =>
      rw [List.filterMap_cons_none rfl, List.filter_cons_of_neg (by simp [ho, Outcome.isEmitted])]
      exact ih
    | emitted code names =>
      have hfragment : fragment? (node, .emitted code names) = some { nodeId := node.id, code } := rfl
      rw [List.filterMap_cons_some hfragment, List.filter_cons_of_pos (by simp [ho, Outcome.isEmitted]),
        List.map_cons, List.map_cons, hnode code names ho]
      exact congrArg _ ih

/-- What an emitted node is: a node of a built-in kind, which binds the names
of that kind and whose piece spells the template of the kind. -/
theorem spells_of_emitted {node : Node} {code : String} {names : List String}
    (h : (upTo target maxNodes).outcome table node = .emitted code names) :
    ∃ b ∈ builtins, b.type = node.type ∧ names = b.endings.map (node.resolved.label ++ ·) ∧
      ∃ values, Spells target node.resolved b values code := by
  cases becomes_iff.2 h with
  | emitted hk he hr =>
    rw [upTo_palette] at hk
    rw [upTo_templates] at hr
    obtain ⟨b, hb, htype, hd⟩ := get?_builtin hk
    exact ⟨b, hb, htype, hd.boundNames _,
      spells_of_render hb hd node.isIdentifier_resolved hr⟩

/-- A node is emitted as soon as its kind renders it. -/
theorem outcome_upTo {kind : Component.Kind} {node : Node} {code : String}
    (hk : Component.builtin.get? node.type = some kind) (he : Node.PlainEntry (table.get? node.id))
    (hr : kind.render node.resolved (Node.properties node.id table) (.embedded target) = .ok code) :
    (upTo target maxNodes).outcome table node = .emitted code (kind.boundNames node.resolved.label) := by
  have hbecomes : Becomes (upTo target maxNodes) table node (.emitted code _) := .emitted hk he hr
  exact hbecomes.outcome_eq

/-- A node that waits for any key to be pressed. -/
def keyNode (label : String) : Node := (Node.bare "a" "keyboard").withLabel label

theorem render_keyNode (target : Target) (label : String) :
    ∃ code, Component.keyboardKind.render (keyNode label).resolved [] (.embedded target) = .ok code :=
  render_filling (.tail _ (.tail _ (.head _))) finds_keyboardValues _ (keyNode label).isIdentifier_resolved
    rfl

theorem outcome_keyNode (label : String) :
    ∃ code, (upTo target maxNodes).outcome [] (keyNode label) =
      .emitted code (Component.keyboardKind.boundNames (keyNode label).resolved.label) := by
  obtain ⟨code, hr⟩ := render_keyNode target label
  exact ⟨code, outcome_upTo rfl trivial hr⟩

end Compiler

/-! ## Frames -/

theorem framePieces_eq (target : Target) :
    framePieces target = piecesBefore (framePieces target) ++
      .char '\n' :: plainField "components" :: .char '\n' :: piecesBehind (framePieces target) := by
  obtain ⟨template, ht, -, hsplit, -⟩ := embedded_frame target
  have hpieces : framePieces target = (Template.scan none false template.source.toList).pieces := by
    rw [framePieces, ht]
  rw [hpieces]
  exact hsplit

theorem key_of_frame {f : Template.Field}
    (h : Piece.field f ∈ piecesBefore (framePieces target) ++ piecesBehind (framePieces target)) :
    f.key = "expName" := by
  simpa [Piece.isKeyed] using (isFrame target).bound _ h

/-- The frame asks for nothing but the name of the experiment and the pieces of the nodes. -/
theorem key_of_mem_framePieces {f : Template.Field} (h : Piece.field f ∈ framePieces target) :
    f.key = "expName" ∨ f.key = "components" := by
  rw [framePieces_eq] at h
  simp only [List.mem_append, List.mem_cons, reduceCtorEq, false_or, plainField, Piece.field.injEq] at h
  rcases h with h | rfl | h
  · exact .inl (key_of_frame (List.mem_append_left _ h))
  · exact .inr rfl
  · exact .inl (key_of_frame (List.mem_append_right _ h))

/-- Putting a program together always succeeds with the embedded templates:
the pieces of the nodes stand between the two parts of the frame. -/
theorem assemble_embedded (target : Target) (name : String) (fragments : List Fragment) :
    ∃ source values, Program.assemble (.embedded target) name fragments = .ok source ∧
      values "expName" = (target.textLiteral name).toList ∧
      Fit target values (piecesBefore (framePieces target) ++ piecesBehind (framePieces target)) ∧
      source.toList = spelled values (piecesBefore (framePieces target)) ++
        '\n' :: ((Program.body fragments).toList ++
          '\n' :: spelled values (piecesBehind (framePieces target))) := by
  obtain ⟨template, ht, hplain, -⟩ := embedded_frame target
  have hpieces : (Template.scan none false template.source.toList).pieces = framePieces target := by
    rw [framePieces, ht]
  obtain ⟨hname, hbody⟩ := Program.get?_assemblyContext target name fragments
  have hbound : ∀ piece ∈ framePieces target,
      piece.IsBound (Program.assemblyContext target name fragments) := by
    intro piece hp
    cases piece with
    | char c => exact trivial
    | field f =>
      rcases key_of_mem_framePieces hp with hkey | hkey
      · rw [Piece.IsBound, hkey, hname]; rfl
      · rw [Piece.IsBound, hkey, hbody]; rfl
  obtain ⟨values, hvalues⟩ : ∃ values, (Program.assemblyContext target name fragments).values = values :=
    ⟨_, rfl⟩
  obtain ⟨source, hsource⟩ : ∃ source : String, source.toList = spelled values (framePieces target) :=
    ⟨String.ofList _, String.toList_ofList⟩
  have hrender : template.render (Program.assemblyContext target name fragments) = .ok source :=
    (Template.render_eq_ok_iff hplain).2 (hpieces ▸ ⟨hbound, hvalues ▸ hsource⟩)
  refine ⟨source, values, ?_, ?_, fun f hf => ?_, ?_⟩
  · have htarget : (Template.Collection.embedded target).target = target := rfl
    simp only [Program.assemble, ht, htarget, hrender]
  · rw [← hvalues, Template.Context.values_of_get? hname]
  · rw [key_of_frame hf, ← hvalues, Template.Context.values_of_get? hname]
    exact isExpression_textLiteral name
  · have hvalue : values "components" = (Program.body fragments).toList := by
      rw [← hvalues, Template.Context.values_of_get? hbody]
    rw [← hvalue, hsource]
    exact (congrArg (spelled values) (framePieces_eq target)).trans (Template.spelled_append ..)

/-! ## Compilations -/

namespace Compiler

variable {name : String} {graph : Graph} {table : Dict Json} {maxNodes : Nat}

/-- A compilation with what comes with the library succeeds for every graph
that is not too large. -/
theorem compileGraph_upTo (name : String) (table : Dict Json) (h : graph.nodes.length ≤ maxNodes) :
    ∃ report, (upTo target maxNodes).compileGraph name graph table = .ok report := by
  obtain ⟨source, -, hs, -⟩ := assemble_embedded target name
    (((upTo target maxNodes).outcomes table graph.nodes).filterMap fragment?)
  exact ⟨_, compileGraph_eq_ok_iff.2 ⟨h, source, hs, rfl⟩⟩

/-- The source of a program: the pieces of its nodes between the two parts of
the frame, in which the name of the experiment stands. -/
theorem named_source_of_compileGraph {report : Report}
    (h : (upTo target maxNodes).compileGraph name graph table = .ok report) :
    ∃ values, values "expName" = (target.textLiteral name).toList ∧
      Fit target values (piecesBefore (framePieces target)) ∧
      Fit target values (piecesBehind (framePieces target)) ∧
      report.source.toList = spelled values (piecesBefore (framePieces target)) ++
        '\n' :: ((Program.body report.fragments).toList ++
          '\n' :: spelled values (piecesBehind (framePieces target))) := by
  obtain ⟨-, source, hs, rfl⟩ := compileGraph_eq_ok_iff.1 h
  obtain ⟨source', values, hs', hname, hfit, htext⟩ := assemble_embedded target name
    (((upTo target maxNodes).outcomes table graph.nodes).filterMap fragment?)
  rw [upTo_templates, hs', Except.ok.injEq] at hs
  subst hs
  exact ⟨values, hname, hfit.mono fun _ => List.mem_append_left _,
    hfit.mono fun _ => List.mem_append_right _, htext⟩

theorem source_of_compileGraph {report : Report}
    (h : (upTo target maxNodes).compileGraph name graph table = .ok report) :
    ∃ values, Fit target values (piecesBefore (framePieces target)) ∧
      Fit target values (piecesBehind (framePieces target)) ∧
      report.source.toList = spelled values (piecesBefore (framePieces target)) ++
        '\n' :: ((Program.body report.fragments).toList ++
          '\n' :: spelled values (piecesBehind (framePieces target))) := by
  obtain ⟨values, -, h⟩ := named_source_of_compileGraph h
  exact ⟨values, h⟩

theorem nodeIds_fragments {c : Compiler} {report : Report}
    (h : c.compileGraph name graph table = .ok report) :
    report.fragments.map (·.nodeId) = (c.emitted table graph.nodes).map (·.id) := by
  rw [fragments_of_compileGraph h]
  exact map_fragments fun _ _ _ _ _ => rfl

/-- What is found in the pieces of a program is found in filled templates of
built-in kinds, one for each emitted node. -/
theorem map_codes {β : Type} {report : Report} {g : String → β} {k : Node → β}
    (h : (upTo target maxNodes).compileGraph name graph table = .ok report)
    (hg : ∀ {node : Node} {b : Builtin} {values : Values} {code : String}, b ∈ builtins →
      b.type = node.type →
      ((upTo target maxNodes).outcome table node).names = b.endings.map (node.resolved.label ++ ·) →
      Spells target node.resolved b values code → g code = k node) :
    report.fragments.map (fun f => g f.code) =
      ((upTo target maxNodes).emitted table graph.nodes).map k := by
  rw [fragments_of_compileGraph h]
  refine map_fragments fun node _ code names ho => ?_
  obtain ⟨b, hb, htype, hnames, values, hspells⟩ := spells_of_emitted ho
  exact hg hb htype (by rw [ho]; exact hnames) hspells

/-- Every piece of a program is the template of a built-in kind, filled for a node. -/
theorem spells_of_mem_fragments {report : Report}
    (h : (upTo target maxNodes).compileGraph name graph table = .ok report) {f : Fragment}
    (hf : f ∈ report.fragments) :
    ∃ node ∈ graph.nodes, ∃ b ∈ builtins, ∃ values, Spells target node.resolved b values f.code := by
  rw [fragments_of_compileGraph h, List.mem_filterMap] at hf
  obtain ⟨p, hp, hfragment⟩ := hf
  obtain ⟨node, hnode, rfl⟩ := List.mem_map.1 hp
  cases ho : (upTo target maxNodes).outcome table node with
  | unknownType => rw [ho] at hfragment; cases hfragment
  | failed cause => rw [ho] at hfragment; cases hfragment
  | emitted code names =>
    rw [ho] at hfragment
    cases hfragment
    obtain ⟨b, hb, -, -, values, hspells⟩ := spells_of_emitted ho
    exact ⟨node, hnode, b, hb, values, hspells⟩

end Compiler

/-! ## Lines -/

/-- Texts with a blank line between them. -/
def spacedOut (texts : List (List Char)) : List Char := ['\n', '\n'].intercalate texts

theorem spacedOut_cons_cons (a b : List Char) (texts : List (List Char)) :
    spacedOut (a :: b :: texts) = a ++ '\n' :: '\n' :: spacedOut (b :: texts) := by
  rw [spacedOut, List.intercalate_cons_cons, List.append_assoc]
  rfl

theorem toList_body (fragments : List Fragment) :
    (Program.body fragments).toList =
      spacedOut (fragments.map fun f => (Program.dropNewlines f.code).toList) := by
  simp [Program.body, spacedOut, String.toList_intercalate, Function.comp_def]

/-- What is found in no blank line is found in texts one by one. -/
theorem flatMap_spacedOut {β : Type} {f : List Char → List β} (hf : f [] = [])
    (texts : List (List Char)) :
    ((spacedOut texts).splitOn '\n').flatMap f = texts.flatMap fun t => (t.splitOn '\n').flatMap f := by
  induction texts with
  | nil => simp [spacedOut, hf]
  | cons a texts ih =>
    cases texts with
    | nil => simp [spacedOut]
    | cons b texts =>
      rw [spacedOut_cons_cons, List.splitOn_append_cons_self, List.flatMap_append, List.flatMap_cons, ← ih]
      congr 1
      have hblank : ('\n' :: spacedOut (b :: texts)).splitOn '\n' =
          [] :: (spacedOut (b :: texts)).splitOn '\n' := List.splitOn_append_cons_self [] _
      rw [hblank, List.flatMap_cons, hf, List.nil_append]

/-- What is found in no blank line is found in the pieces of nodes and on either side of them. -/
theorem flatMap_lines {β : Type} {f : List Char → List β} (hf : f [] = []) (before behind : List Char)
    (fragments : List Fragment) :
    ((before ++ '\n' :: ((Program.body fragments).toList ++ '\n' :: behind)).splitOn '\n').flatMap f =
      (before.splitOn '\n').flatMap f ++
        (fragments.map fun fragment =>
          ((Program.dropNewlines fragment.code).toList.splitOn '\n').flatMap f).flatten ++
        (behind.splitOn '\n').flatMap f := by
  rw [List.splitOn_append_cons_self, List.splitOn_append_cons_self, List.flatMap_append,
    List.flatMap_append, toList_body, flatMap_spacedOut hf, List.flatMap_map, ← List.append_assoc]
  rfl

/-- The sum of some numbers, with two between them. -/
def spacedSum : List Nat → Nat
  | [] => 0
  | [n] => n
  | n :: m :: ns => n + 2 + spacedSum (m :: ns)

theorem count_spacedOut (texts : List (List Char)) :
    (spacedOut texts).count '\n' = spacedSum (texts.map (List.count '\n')) := by
  induction texts with
  | nil => rfl
  | cons a texts ih =>
    cases texts with
    | nil => simp [spacedOut, spacedSum]
    | cons b texts =>
      rw [spacedOut_cons_cons, List.count_append, List.count_cons_self, List.count_cons_self, ih,
        List.map_cons, List.map_cons, List.map_cons, spacedSum]
      omega

theorem mem_spacedOut {c : Char} {texts : List (List Char)} (h : c ∈ spacedOut texts) :
    c = '\n' ∨ ∃ t ∈ texts, c ∈ t := by
  induction texts with
  | nil => cases h
  | cons a texts ih =>
    cases texts with
    | nil => exact .inr ⟨a, List.mem_cons_self, by simpa [spacedOut] using h⟩
    | cons b texts =>
      rw [spacedOut_cons_cons, List.mem_append, List.mem_cons, List.mem_cons] at h
      rcases h with h | h | h | h
      · exact .inr ⟨a, List.mem_cons_self, h⟩
      · exact .inl h
      · exact .inl h
      · refine (ih h).imp_right fun ⟨t, ht, hc⟩ => ⟨t, List.mem_cons_of_mem _ ht, hc⟩

/-! ## Code -/

/-- A text that is read by itself when another line follows. -/
def Lined (target : Target) (cs : List Char) : Prop :=
  ∀ tail, NewLine tail → code target .code (cs ++ tail) = code target .code cs ++ code target .code tail

theorem newLine_cons (cs : List Char) : NewLine ('\n' :: cs) := by
  intro c hc
  cases hc
  rfl

theorem code_newline_cons (cs : List Char) :
    code target .code ('\n' :: cs) = '\n' :: code target .code cs := by
  cases target <;> rfl

theorem Legible.lined {pieces : List Piece} (h : Legible target pieces) {values : Values}
    (hf : Fit target values pieces) : Lined target (spelled values pieces) := fun tail ht => by
  rw [code_spelled h.keepPieces_eq hf ht, code_spelled_self h.keepPieces_eq hf]

theorem lined_spacedOut {texts : List (List Char)} (h : ∀ t ∈ texts, Lined target t) :
    Lined target (spacedOut texts) ∧
      code target .code (spacedOut texts) = spacedOut (texts.map (code target .code)) := by
  induction texts with
  | nil => exact ⟨fun _ _ => rfl, rfl⟩
  | cons a texts ih =>
    obtain ⟨ha, htexts⟩ := List.forall_mem_cons.1 h
    obtain ⟨ihl, ihc⟩ := ih htexts
    cases texts with
    | nil =>
      have hone : spacedOut [a] = a := by simp [spacedOut]
      rw [List.map_cons, List.map_nil, hone]
      exact ⟨ha, by simp [spacedOut]⟩
    | cons b texts =>
      have hcode : ∀ tail, NewLine tail →
          code target .code (spacedOut (a :: b :: texts) ++ tail) =
            code target .code a ++ '\n' :: '\n' :: (code target .code (spacedOut (b :: texts)) ++
              code target .code tail) := by
        intro tail ht
        rw [spacedOut_cons_cons, List.append_assoc, List.cons_append, List.cons_append,
          ha _ (newLine_cons _), code_newline_cons, code_newline_cons, ihl tail ht]
      have hself : code target .code (spacedOut (a :: b :: texts)) =
          code target .code a ++ '\n' :: '\n' :: code target .code (spacedOut (b :: texts)) := by
        simpa using hcode [] (fun c (hc : c ∈ [].head?) => by cases hc)
      refine ⟨fun tail ht => ?_, ?_⟩
      · rw [hcode tail ht, hself, List.append_assoc]
        rfl
      · rw [hself, ihc]
        exact (spacedOut_cons_cons ..).symm

end FlowScript
