/-
The names that pieces of a program bind. What a built-in kind declares of a
node is what the lines of its piece assign, whatever the node says; so a
report without findings means that the components of the program assign
different names, none of them reserved (`boundNames_assigned`).
-/
import FlowScript.Proofs.Findings
import FlowScript.Proofs.Source

namespace FlowScript

open Template (Piece Values spelled pieceLines)
open Code

variable {target : Target}

/-- The names that lines assign at their very beginning. -/
def assignedNames (target : Target) (lines : List String) : List String :=
  lines.flatMap fun line => (declaredFirst .text target line.toList).map String.ofList

/-- The lines of a program between those that begin and end its components. -/
def componentSection (target : Target) (source : String) : List String :=
  (((Text.splitAt '\n' source).dropWhile (· != target.sectionStart)).drop 1).takeWhile
    (· != target.sectionEnd)

/-! ## Names of one piece -/

theorem assignedNames_map (lines : List (List Char)) :
    assignedNames target (lines.map String.ofList) =
      (lines.flatMap (declaredFirst .text target)).map String.ofList := by
  rw [assignedNames, List.flatMap_map, List.map_flatMap]
  refine congrArg List.flatten (List.map_congr_left fun line _ => ?_)
  rw [String.toList_ofList]

theorem map_ofList_toList (names : List String) : (names.map String.toList).map String.ofList = names := by
  rw [List.map_map]
  exact (List.map_congr_left fun _ _ => String.ofList_toList).trans (List.map_id _)

theorem declaredFirst_nil : declaredFirst .text target [] = [] := by cases target <;> rfl

theorem spelled_namePieces (values : Values) (ending : String) :
    spelled values (namePieces ending) = values "label" ++ ending.toList := by
  rw [namePieces, plainField, Template.spelled_field, Template.spelled_map_char]

theorem Spells.flatMap_declaredFirst {node : Node.Resolved} {b : Builtin} (hb : b ∈ builtins)
    {values : Values} {code : String} (h : Spells target node b values code) :
    ((Program.dropNewlines code).toList.splitOn '\n').flatMap (declaredFirst .text target) =
      b.endings.map fun ending => (node.label ++ ending).toList := by
  have hc := isComponent target hb
  rw [h.dropNewlines hb, FlowScript.flatMap_declaredFirst h.fit hc.settled, hc.shown, List.map_map]
  refine List.map_congr_left fun ending _ => ?_
  rw [Function.comp_apply, spelled_namePieces, h.label, String.toList_append]

theorem Spells.assignedNames {node : Node.Resolved} {b : Builtin} (hb : b ∈ builtins)
    {values : Values} {code : String} (h : Spells target node b values code) :
    assignedNames target (Text.splitAt '\n' code) = b.endings.map (node.label ++ ·) := by
  have hcode : code.toList = (Program.dropNewlines code).toList ++ ['\n'] := by
    rw [h.dropNewlines hb, h.text]
  rw [Text.splitAt, assignedNames_map, hcode, List.splitOn_append_cons_self, List.flatMap_append,
    h.flatMap_declaredFirst hb, List.map_append, List.map_map]
  have hlast : ((([] : List Char).splitOn '\n').flatMap (declaredFirst .text target)).map String.ofList = [] := by
    simp [declaredFirst_nil]
  rw [hlast, List.append_nil]
  exact List.map_congr_left fun _ _ => String.ofList_toList

theorem isIdentifier_append {a b : String} (ha : Identifier.isIdentifier a = true)
    (hb : b.toList.all Identifier.isPart = true) : Identifier.isIdentifier (a ++ b) = true := by
  rw [← @String.ofList_toList a] at ha
  obtain ⟨c, rest, he, hc, hrest⟩ := isIdentifier_iff.1 ha
  rw [← @String.ofList_toList (a ++ b), isIdentifier_iff, String.toList_append, he]
  refine ⟨c, rest ++ b.toList, rfl, hc, fun d hd => ?_⟩
  rcases List.mem_append.1 hd with hd | hd
  · exact hrest d hd
  · exact List.all_eq_true.1 hb d hd

theorem isPart_endings : ∀ b ∈ builtins, ∀ ending ∈ b.endings,
    ending.toList.all Identifier.isPart = true := by
  decide

/-! ## The components of a program -/

theorem between_eq {front body rest : List String} {start finish : String} (hfront : start ∉ front)
    (hbody : finish ∉ body) :
    (((front ++ start :: (body ++ finish :: rest)).dropWhile (· != start)).drop 1).takeWhile
      (· != finish) = body := by
  have hdrop : (front ++ start :: (body ++ finish :: rest)).dropWhile (· != start) =
      start :: (body ++ finish :: rest) := by
    rw [List.dropWhile_append_of_pos, List.dropWhile_cons_of_neg (by simp)]
    intro line hline
    rw [bne_iff_ne]
    rintro rfl
    exact hfront hline
  rw [hdrop, List.drop_one, List.tail_cons, List.takeWhile_append_of_pos,
    List.takeWhile_cons_of_neg (by simp), List.append_nil]
  intro line hline
  rw [bne_iff_ne]
  rintro rfl
  exact hbody hline

theorem ne_spelled_of_differs {values : Values} {line : List Piece} {cs : List Char}
    (h : differs cs line = true) (hn : Named values line) : spelled values line ≠ cs :=
  fun he => not_isPrefix_spelled h hn (he ▸ List.prefix_rfl)

theorem not_mem_body {fragments : List Fragment} {line : List Char} (hne : line ≠ [])
    (h : ∀ f ∈ fragments, line ∉ (Program.dropNewlines f.code).toList.splitOn '\n') :
    line ∉ (Program.body fragments).toList.splitOn '\n' := by
  intro hm
  have hfound : ((Program.body fragments).toList.splitOn '\n').flatMap
      (fun l => if l = line then [l] else []) = [] := by
    rw [toList_body, flatMap_spacedOut (by simp [hne.symm]), List.flatMap_map, List.flatMap_eq_nil_iff]
    intro f hf
    rw [List.flatMap_eq_nil_iff]
    intro l hl
    rw [if_neg]
    rintro rfl
    exact h f hf hl
  simpa using List.flatMap_eq_nil_iff.1 hfound line hm

namespace Compiler

variable {name : String} {graph : Graph} {table : Dict Json} {maxNodes : Nat} {report : Report}

theorem sectionEnd_not_mem (h : (upTo target maxNodes).compileGraph name graph table = .ok report) :
    target.sectionEnd.toList ∉ (Program.body report.fragments).toList.splitOn '\n' := by
  refine not_mem_body (by cases target <;> decide) fun f hf hm => ?_
  obtain ⟨node, -, b, hb, values, hspells⟩ := spells_of_mem_fragments h hf
  rw [hspells.dropNewlines hb, Template.splitOn_spelled hspells.fit.inline] at hm
  obtain ⟨line, hline, he⟩ := List.mem_map.1 hm
  exact ne_spelled_of_differs ((isComponent target hb).inside line hline)
    (hspells.fit.named.mono fun _ => mem_of_mem_pieceLines hline) he

/-- The section of the components is the body of the program and a blank line. -/
theorem componentSection_source
    (h : (upTo target maxNodes).compileGraph name graph table = .ok report) :
    componentSection target report.source =
      Text.splitAt '\n' (Program.body report.fragments) ++ [""] := by
  obtain ⟨values, hbefore, hbehind, hsource⟩ := source_of_compileGraph h
  have hframe := isFrame target
  obtain ⟨front, hfront⟩ := List.getLast?_eq_some_iff.1 hframe.starts
  obtain ⟨rest, hrest⟩ : ∃ rest, pieceLines (piecesBehind (framePieces target)) =
      [] :: target.sectionEnd.toList.map .char :: rest :=
    ⟨_, (List.take_append_drop 2 _).symm.trans (congrArg (· ++ _) hframe.ends)⟩
  have hlines : Text.splitAt '\n' report.source =
      (front.map (spelled values)).map String.ofList ++ target.sectionStart ::
        ((Text.splitAt '\n' (Program.body report.fragments) ++ [""]) ++
          target.sectionEnd :: (rest.map (spelled values)).map String.ofList) := by
    rw [Text.splitAt, hsource, List.splitOn_append_cons_self, List.splitOn_append_cons_self,
      Template.splitOn_spelled hbefore.inline, Template.splitOn_spelled hbehind.inline, hfront, hrest]
    simp [Template.spelled_map_char, Text.splitAt]
  rw [componentSection, hlines]
  refine between_eq ?_ ?_
  · rw [List.map_map]
    intro hm
    obtain ⟨line, hline, he⟩ := List.mem_map.1 hm
    have hall : line ∈ (pieceLines (piecesBefore (framePieces target))).dropLast := by
      rw [hfront, List.dropLast_concat]
      exact hline
    have hmem := (List.dropLast_sublist _).subset hall
    refine ne_spelled_of_differs (hframe.outside line hall)
      (hbefore.named.mono fun _ => mem_of_mem_pieceLines hmem) ?_
    rw [← he, Function.comp_apply, String.toList_ofList]
  · intro hm
    rcases List.mem_append.1 hm with hm | hm
    · obtain ⟨line, hline, he⟩ := List.mem_map.1 hm
      refine sectionEnd_not_mem h ?_
      rw [← he, String.toList_ofList]
      exact hline
    · revert hm
      cases target <;> decide

/-- The section of the components assigns the names of the emitted nodes, in order. -/
theorem assignedNames_componentSection
    (h : (upTo target maxNodes).compileGraph name graph table = .ok report) :
    assignedNames target (componentSection target report.source) =
      ((upTo target maxNodes).emitted table graph.nodes).flatMap
        fun node => ((upTo target maxNodes).outcome table node).names := by
  have hfragments := map_codes
    (g := fun code =>
      ((Program.dropNewlines code).toList.splitOn '\n').flatMap (declaredFirst .text target))
    (k := fun node => ((upTo target maxNodes).outcome table node).names.map String.toList) h
    fun hb _ hnames hspells => by
      rw [hspells.flatMap_declaredFirst hb, hnames, List.map_map]
      rfl
  have hblank : [""] = [([] : List Char)].map String.ofList := rfl
  rw [componentSection_source h, Text.splitAt, hblank, ← List.map_append, assignedNames_map,
    List.flatMap_append, toList_body, flatMap_spacedOut declaredFirst_nil, List.flatMap_map,
    List.flatMap_singleton, declaredFirst_nil, List.append_nil, List.flatMap_def, hfragments,
    ← List.flatMap_def, List.map_flatMap]
  exact congrArg List.flatten (List.map_congr_left fun _ _ => map_ofList_toList _)

theorem emitted_eq_of_clean {c : Compiler} {nodes : List Node}
    (h : ∀ node ∈ nodes, CleanNode c table [] node) : c.emitted table nodes = nodes :=
  List.filter_eq_self.2 fun node hnode => (h node hnode).emitted

theorem nodup_endings : ∀ b ∈ builtins, b.endings.Nodup := by decide

theorem nodup_names (node : Node) : ((upTo target maxNodes).outcome table node).names.Nodup := by
  cases ho : (upTo target maxNodes).outcome table node with
  | unknownType => exact List.nodup_nil
  | failed cause => exact List.nodup_nil
  | emitted code names =>
    obtain ⟨b, hb, -, rfl, -⟩ := spells_of_emitted ho
    refine List.Pairwise.map _ (fun first second hne he => hne ?_) (nodup_endings b hb)
    have hlists := congrArg String.toList he
    rw [String.toList_append, String.toList_append] at hlists
    exact String.toList_inj.1 (List.append_cancel_left hlists)

theorem nodup_flatMap_names {nodes : List Node}
    (h : nodes.Pairwise fun first second => ∀ name, Binds (upTo target maxNodes) table first name →
      ¬ Binds (upTo target maxNodes) table second name) :
    (nodes.flatMap fun node => ((upTo target maxNodes).outcome table node).names).Nodup := by
  refine List.pairwise_flatMap.2 ⟨fun node _ => nodup_names node, h.imp fun hpair => ?_⟩
  rintro first hfirst second hsecond rfl
  exact hpair _ (binds_iff.2 hfirst) (binds_iff.2 hsecond)

/-- **The names that a built-in kind declares are the names that its pieces
assign**, in order, and all of them are identifiers. So if nothing is found
about a graph, all its nodes are emitted, and the components of the program
assign the names of the nodes, no two of them the same and none reserved. -/
theorem boundNames_assigned (target : Target) :
    (∀ type kind, Component.builtin.get? type = some kind →
      ∀ (node : Node) (table : Dict Json) (code : String),
        kind.render node.resolved (Node.properties node.id table) (.embedded target) = .ok code →
          assignedNames target (Text.splitAt '\n' code) = kind.boundNames node.resolved.label ∧
            ∀ name ∈ kind.boundNames node.resolved.label, Identifier.isIdentifier name = true) ∧
    ∀ maxNodes name graph table report,
      (upTo target maxNodes).compileGraph name graph table = .ok report → report.findings = [] →
        report.fragments.map (·.nodeId) = graph.nodes.map (·.id) ∧
          assignedNames target (componentSection target report.source) =
            graph.nodes.flatMap (fun node => ((upTo target maxNodes).outcome table node).names) ∧
          (assignedNames target (componentSection target report.source)).Nodup ∧
          ∀ bound ∈ assignedNames target (componentSection target report.source),
            target.isReserved bound = false := by
  constructor
  · intro type kind hk node table code hr
    obtain ⟨b, hb, -, hd⟩ := get?_builtin hk
    obtain ⟨values, hspells⟩ := spells_of_render hb hd node.isIdentifier_resolved hr
    rw [hd.boundNames]
    refine ⟨hspells.assignedNames hb, fun name hname => ?_⟩
    obtain ⟨ending, hending, rfl⟩ := List.mem_map.1 hname
    exact isIdentifier_append node.isIdentifier_resolved (isPart_endings b hb ending hending)
  · intro maxNodes name graph table report h hclean
    obtain ⟨hnodes, hpairs⟩ := (findings_eq_nil_iff h).1 hclean
    have hnames := assignedNames_componentSection h
    have hids := nodeIds_fragments h
    rw [emitted_eq_of_clean hnodes] at hnames hids
    refine ⟨hids, hnames, hnames ▸ nodup_flatMap_names hpairs, fun bound hbound => ?_⟩
    rw [hnames, List.mem_flatMap] at hbound
    obtain ⟨node, hnode, hbound⟩ := hbound
    exact (hnodes node hnode).free bound (binds_iff.2 hbound)

theorem names_keyNode (label : String) :
    ((upTo target maxNodes).outcome [] (keyNode label)).names =
      Component.keyboardKind.boundNames (keyNode label).resolved.label := by
  obtain ⟨code, ho⟩ := @outcome_keyNode target maxNodes label
  rw [ho, Outcome.names]

theorem findings_keyNode {label : String}
    (h : (upTo target maxNodes).compileGraph name { nodes := [keyNode label], edges := [] } [] =
      .ok report)
    (hfree : ∀ bound ∈ Component.keyboardKind.boundNames (keyNode label).resolved.label,
      target.isReserved bound = false) : report.findings = [] := by
  refine (findings_eq_nil_iff h).2 ⟨List.forall_mem_singleton.2 ⟨?_, fun bound hb => ?_, ?_⟩, ?_⟩
  · obtain ⟨code, ho⟩ := @outcome_keyNode target maxNodes label
    rw [ho]
    rfl
  · rw [binds_iff, names_keyNode] at hb
    exact hfree bound hb
  · exact fun _ _ e he => (List.not_mem_nil he).elim
  · exact List.pairwise_singleton _ _

theorem boundNames_keyNode :
    ∃ code report,
      Component.keyboardKind.render (keyNode "go!").resolved [] (.embedded .desktop) = .ok code ∧
        assignedNames .desktop (Text.splitAt '\n' code) = ["go", "go_keys"] ∧
        (upTo .desktop 1).compileGraph "e" { nodes := [keyNode "go!"], edges := [] } [] = .ok report ∧
        report.findings = [] ∧
        assignedNames .desktop (componentSection .desktop report.source) = ["go", "go_keys"] := by
  obtain ⟨code, hr⟩ := render_keyNode .desktop "go!"
  obtain ⟨report, h⟩ := @compileGraph_upTo .desktop { nodes := [keyNode "go!"], edges := [] } 1 "e" []
    (by decide)
  have hlabel : Component.keyboardKind.boundNames (keyNode "go!").resolved.label = ["go", "go_keys"] := by
    decide
  have hclean := findings_keyNode h (hlabel ▸ by decide)
  obtain ⟨hpiece, hprogram⟩ := boundNames_assigned .desktop
  have hnames := (hprogram 1 "e" _ [] report h hclean).2.1
  rw [List.flatMap_cons, names_keyNode, hlabel] at hnames
  have hassigned := (hpiece "keyboard" Component.keyboardKind rfl (keyNode "go!") [] code hr).1
  exact ⟨code, report, hr, hassigned.trans hlabel, h, hclean, hnames⟩

end Compiler

end FlowScript
