/-
The names that a program declares in its code, at any depth. The frame
declares names that no node may use, and each node its own names; the template
of key presses declares two more in the browser, which a node may use. So in
a program without findings a name of a node is declared once, and once more
for each node that waits for keys if it is one of these two
(`count_declaredNames`).
-/
import FlowScript.Proofs.BoundNames

namespace FlowScript

open Template (Piece Values spelled pieceLines)
open Code

variable {target : Target}

/-- The names that a program declares in its code: in Python by lines that
begin with an assignment, in JavaScript by constants anywhere. -/
def declaredNames (target : Target) (source : String) : List String :=
  (((code target .code source.toList).splitOn '\n').flatMap (declared .text target)).map String.ofList

example : declaredNames .browser "const x = 1; for (const y = 'const z = 2';;) f(); // const w = 3" =
    ["x", "y"] := by
  decide

theorem declared_nil : declared .text target [] = [] := by cases target <;> rfl

/-! ## Names of pieces -/

theorem spelled_codeValues_namePieces {values : Values}
    (h : Identifier.isIdentifier (String.ofList (values "label")) = true) (ending : String) :
    spelled (codeValues target values) (namePieces ending) = values "label" ++ ending.toList := by
  rw [spelled_namePieces, codeValues_identifier h]

/-- The piece of a node declares the names of the node and those of its template. -/
theorem Spells.flatMap_declared {node : Node.Resolved} {b : Builtin} (hb : b ∈ builtins)
    (hid : Identifier.isIdentifier node.label = true) {values : Values} {text : String}
    (h : Spells target node b values text) :
    ((code target .code (Program.dropNewlines text).toList).splitOn '\n').flatMap
        (declared .text target) =
      (b.endings.map (node.label ++ ·) ++ localNames target b.type).map String.toList := by
  have hc := isComponent target hb
  have hlabel : Identifier.isIdentifier (String.ofList (values "label")) = true := by
    rwa [h.label, String.ofList_toList]
  rw [h.dropNewlines hb, hc.legible.flatMap_declared h.fit, hc.declares, List.map_append,
    List.map_append, List.map_map, List.map_map, List.map_map]
  congr 1
  · refine List.map_congr_left fun ending _ => ?_
    rw [Function.comp_apply, spelled_codeValues_namePieces hlabel, h.label]
    exact String.toList_append.symm
  · exact List.map_congr_left fun name _ => Template.spelled_map_char _ _

theorem Spells.lined {node : Node.Resolved} {b : Builtin} (hb : b ∈ builtins) {values : Values}
    {text : String} (h : Spells target node b values text) :
    Lined target (Program.dropNewlines text).toList := by
  rw [h.dropNewlines hb]
  exact (isComponent target hb).legible.lined h.fit

/-! ## Names of programs -/

theorem code_parts {before body behind : List Char} (hbefore : Lined target before)
    (hbody : Lined target body) :
    code target .code (before ++ '\n' :: (body ++ '\n' :: behind)) =
      code target .code before ++
        '\n' :: (code target .code body ++ '\n' :: code target .code behind) := by
  rw [hbefore _ (newLine_cons _), code_newline_cons, hbody _ (newLine_cons _), code_newline_cons]

namespace Compiler

variable {name : String} {graph : Graph} {table : Dict Json} {maxNodes : Nat} {report : Report}

/-- A program declares the names of its frame, and for each node those of the
node and those of its template. -/
theorem declaredNames_source (h : (upTo target maxNodes).compileGraph name graph table = .ok report) :
    declaredNames target report.source =
      frameNames target ++ ((upTo target maxNodes).emitted table graph.nodes).flatMap fun node =>
        ((upTo target maxNodes).outcome table node).names ++ localNames target node.type := by
  obtain ⟨values, hbefore, hbehind, hsource⟩ := source_of_compileGraph h
  have hframe := isFrame target
  have hlined : ∀ t ∈ report.fragments.map (fun f => (Program.dropNewlines f.code).toList),
      Lined target t := by
    intro t ht
    obtain ⟨f, hf, rfl⟩ := List.mem_map.1 ht
    obtain ⟨node, -, b, hb, values, hspells⟩ := spells_of_mem_fragments h hf
    exact hspells.lined hb
  have hfragments := map_codes
    (g := fun code => ((Code.code target .code (Program.dropNewlines code).toList).splitOn '\n').flatMap
      (declared .text target))
    (k := fun node => (((upTo target maxNodes).outcome table node).names ++
      localNames target node.type).map String.toList) h
    fun {node} {_} {_} {_} hb htype hnames hspells => by
      rw [hspells.flatMap_declared hb node.isIdentifier_resolved, hnames, htype]
  obtain ⟨hbodyLined, hbodyCode⟩ := lined_spacedOut hlined
  rw [declaredNames, hsource, toList_body, code_parts (hframe.legibleBefore.lined hbefore) hbodyLined, hbodyCode,
    List.splitOn_append_cons_self, List.splitOn_append_cons_self, List.flatMap_append,
    List.flatMap_append, hframe.legibleBefore.flatMap_declared hbefore, hframe.legibleBehind.flatMap_declared hbehind,
    hframe.declaresBefore, hframe.declaresBehind, flatMap_spacedOut declared_nil, List.flatMap_map,
    List.flatMap_map, List.flatMap_def, hfragments, List.map_nil, List.append_nil, ← List.flatMap_def,
    List.map_append, List.map_map, List.map_map, List.map_flatMap]
  congr 1
  · refine (List.map_congr_left fun name _ => ?_).trans (List.map_id _)
    rw [Function.comp_apply, Function.comp_apply, Template.spelled_map_char, String.ofList_toList, id]
  · exact congrArg List.flatten (List.map_congr_left fun _ _ => map_ofList_toList _)

/-! ## How often a name is declared -/

theorem count_flatMap_append {α : Type} {f g : α → List String} (l : List α) (name : String) :
    (l.flatMap fun a => f a ++ g a).count name =
      (l.flatMap f).count name + (l.flatMap g).count name := by
  induction l with
  | nil => rfl
  | cons a l ih =>
    simp only [List.flatMap_cons, List.count_append, ih]
    omega

theorem count_localNames (type name : String) :
    (localNames target type).count name =
      if target = .browser ∧ name ∈ keyLocals then if type = "keyboard" then 1 else 0 else 0 := by
  have hnodup : keyLocals.Nodup := by decide
  rw [localNames]
  by_cases htarget : target = .browser
  · by_cases htype : type = "keyboard"
    · simp only [htarget, htype, and_self, if_true, true_and]
      exact hnodup.count
    · simp [htype]
  · simp [htarget]

theorem count_flatMap_localNames (nodes : List Node) (name : String) :
    (nodes.flatMap fun node => localNames target node.type).count name =
      if target = .browser ∧ name ∈ keyLocals then nodes.countP (·.type == "keyboard") else 0 := by
  induction nodes with
  | nil => simp
  | cons node nodes ih =>
    rw [List.flatMap_cons, List.count_append, ih, count_localNames, List.countP_cons]
    split
    · simp only [beq_iff_eq]
      omega
    · rfl

theorem count_frameNames {name : String} (h : target.isReserved name = false) :
    (frameNames target).count name = 0 := by
  refine List.count_eq_zero.2 fun hm => ?_
  rw [isReserved_frameNames target name hm] at h
  cases h

/-- **A name of a node is declared once in a program without findings**, with
one exception: in the browser the template of key presses declares two names
of its own, so one of these that a node binds is declared once more for each
node that waits for keys. -/
theorem count_declaredNames (h : (upTo target maxNodes).compileGraph name graph table = .ok report)
    (hclean : report.findings = []) {node : Node} (hnode : node ∈ graph.nodes) {bound : String}
    (hbound : bound ∈ ((upTo target maxNodes).outcome table node).names) :
    (declaredNames target report.source).count bound =
        1 + (if target = .browser ∧ bound ∈ keyLocals then graph.nodes.countP (·.type == "keyboard")
          else 0) ∧
      ((declaredNames target report.source).count bound = 1 ↔
        ¬ (target = .browser ∧ bound ∈ keyLocals ∧ ∃ other ∈ graph.nodes, other.type = "keyboard")) := by
  obtain ⟨hnodes, hpairs⟩ := (findings_eq_nil_iff h).1 hclean
  have hfree : target.isReserved bound = false := (hnodes node hnode).free bound (binds_iff.2 hbound)
  have hmem : bound ∈ graph.nodes.flatMap fun n => ((upTo target maxNodes).outcome table n).names :=
    List.mem_flatMap.2 ⟨node, hnode, hbound⟩
  have hown : (graph.nodes.flatMap fun n => ((upTo target maxNodes).outcome table n).names).count bound =
      1 := by
    rw [(nodup_flatMap_names hpairs).count, if_pos hmem]
  have hcount : (declaredNames target report.source).count bound =
      1 + (if target = .browser ∧ bound ∈ keyLocals then graph.nodes.countP (·.type == "keyboard")
        else 0) := by
    rw [declaredNames_source h, emitted_eq_of_clean hnodes, List.count_append, count_frameNames hfree,
      count_flatMap_append, hown, count_flatMap_localNames, Nat.zero_add]
  refine ⟨hcount, ?_⟩
  rw [hcount]
  by_cases hlocal : target = .browser ∧ bound ∈ keyLocals
  · rw [if_pos hlocal]
    have hnone : graph.nodes.countP (·.type == "keyboard") = 0 ↔
        ¬ ∃ other ∈ graph.nodes, other.type = "keyboard" := by
      rw [List.countP_eq_zero]
      simp
    rw [Nat.add_eq_left, hnone]
    exact not_congr ⟨fun hk => ⟨hlocal.1, hlocal.2, hk⟩, fun hk => hk.2.2⟩
  · rw [if_neg hlocal]
    exact iff_of_true rfl fun hk => hlocal ⟨hk.1, hk.2.1⟩

theorem count_declaredNames_keyNode :
    ∃ report, (upTo .desktop 1).compileGraph "e" { nodes := [keyNode "keys"], edges := [] } [] = .ok report ∧
      report.findings = [] ∧ (declaredNames .desktop report.source).count "keys" = 1 := by
  obtain ⟨report, h⟩ := @compileGraph_upTo .desktop { nodes := [keyNode "keys"], edges := [] } 1 "e" []
    (by decide)
  have hlabel : Component.keyboardKind.boundNames (keyNode "keys").resolved.label =
      ["keys", "keys_keys"] := by decide
  have hclean := findings_keyNode h (hlabel ▸ by decide)
  have hbound : "keys" ∈ ((upTo .desktop 1).outcome [] (keyNode "keys")).names := by
    rw [names_keyNode, hlabel]
    exact List.mem_cons_self
  exact ⟨report, h, hclean, (count_declaredNames h hclean List.mem_cons_self hbound).2.2 (by decide)⟩

/-- In the browser, a node that waits for keys may have a name that its template declares inside it. -/
theorem declaredNames_keys :
    ∃ report, (upTo .browser 1).compileGraph "e" { nodes := [keyNode "keys"], edges := [] } [] = .ok report ∧
      report.findings = [] ∧ "keys" ∈ ((upTo .browser 1).outcome [] (keyNode "keys")).names ∧
      declaredNames .browser report.source =
        ["expName", "expInfo", "psychoJS", "globalClock", "sleep", "win", "thisExp", "keys", "keys_keys",
          "started", "keys"] := by
  obtain ⟨report, h⟩ := @compileGraph_upTo .browser { nodes := [keyNode "keys"], edges := [] } 1 "e" []
    (by decide)
  have hlabel : Component.keyboardKind.boundNames (keyNode "keys").resolved.label =
      ["keys", "keys_keys"] := by decide
  have hclean := findings_keyNode h (hlabel ▸ by decide)
  have hnames := declaredNames_source h
  rw [emitted_eq_of_clean ((findings_eq_nil_iff h).1 hclean).1, List.flatMap_cons, names_keyNode,
    hlabel] at hnames
  refine ⟨report, h, hclean, ?_, hnames⟩
  rw [names_keyNode, hlabel]
  exact List.mem_cons_self

end Compiler

end FlowScript
