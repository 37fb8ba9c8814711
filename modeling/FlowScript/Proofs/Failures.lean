/-
Why compilations fail, as rules in the order of the checks (`Fails`,
`FailsOnDocument`). A compilation ends with the failures of these rules and
with no others, and succeeds if no rule applies (`failsByRules`). No rule asks
what became of a node: nodes that are left out take part only with the pieces
that they do not add to the values of the template. A template may refuse to
lay out a text that is too short, but what it does with no pieces at all it
does with any (`Template.render_of_fillsOut`).
-/
import FlowScript.Proofs.Isolation
import FlowScript.Proofs.Stored
import FlowScript.Proofs.Values

namespace FlowScript

/-! ## Longer values -/

namespace Template

/-- What a layout asks for that texts do not have, whatever the text is. -/
def Layout.check (layout : Layout) : Except Fault Unit := do
  match layout.type with
  | some c => if c = 's' then pure () else .error (.notText c)
  | none => pure ()
  if layout.alternate then .error .alternate
  if layout.comma then .error .comma
  if layout.sign then .error .sign

/-- What of a value goes into its width. -/
def Layout.cut (layout : Layout) (value : List Char) : List Char :=
  match layout.precision with
  | some n => value.take n
  | none => value

theorem Layout.apply_eq (layout : Layout) (value : List Char) :
    layout.apply value =
      layout.check >>= fun _ =>
        layout.pad (layout.width - (layout.cut value).length) (layout.cut value) := by
  rw [apply, check]
  rcases layout.type with _ | c
  · cases layout.alternate <;> cases layout.comma <;> cases layout.sign <;> rfl
  · by_cases hc : c = 's'
    · simp only [hc, if_true]
      cases layout.alternate <;> cases layout.comma <;> cases layout.sign <;> rfl
    · simp only [hc, if_false]
      rfl

theorem Layout.cut_nil (layout : Layout) : layout.cut [] = [] := by
  rw [cut]
  cases layout.precision with
  | none => rfl
  | some n => exact List.take_nil

/-- What pads the empty text pads all texts: it leaves the most to fill. -/
theorem Layout.pad_of_empty {layout : Layout} {padded : List Char}
    (h : layout.pad layout.width [] = .ok padded) {n : Nat} (hn : n ≤ layout.width) (value : List Char) :
    ∃ cs, layout.pad n value = .ok cs := by
  by_cases hzero : n = 0
  · exact ⟨value, by rw [pad, if_pos hzero]⟩
  · have hwidth : layout.width ≠ 0 := by omega
    rw [pad, if_neg hwidth] at h
    rw [pad, if_neg hzero]
    cases halign : layout.align with
    | signed => rw [halign] at h; cases h
    | left => exact ⟨_, rfl⟩
    | right => exact ⟨_, rfl⟩
    | centre => exact ⟨_, rfl⟩

/-- A layout that suits the empty text suits all texts. -/
theorem Layout.apply_of_empty {layout : Layout} {laidOut : List Char} (h : layout.apply [] = .ok laidOut)
    (value : List Char) : ∃ cs, layout.apply value = .ok cs := by
  rw [apply_eq, cut_nil] at h
  obtain ⟨_, hcheck, hpad⟩ := bind_eq_ok_iff.1 h
  obtain ⟨cs, hcs⟩ := pad_of_empty hpad (Nat.sub_le _ _) (layout.cut value)
  exact ⟨cs, by rw [apply_eq]; exact bind_eq_ok_iff.2 ⟨_, hcheck, hcs⟩⟩

/-- A context that has all values of another one, except that some of those
that are empty there are not. -/
def Context.FillsOut (context context' : Context) : Prop :=
  ∀ key value, context.get? key = some value →
    ∃ value', context'.get? key = some value' ∧ (value = "" ∨ value' = value)

variable {context context' : Context}

theorem Piece.fill_of_fillsOut (hc : context.FillsOut context') {piece : Piece} {cs : List Char}
    (h : piece.fill context = .ok cs) : ∃ cs', piece.fill context' = .ok cs' := by
  cases piece with
  | char c => exact ⟨[c], rfl⟩
  | field f =>
    rw [fill] at h ⊢
    cases hg : context.get? f.key with
    | none => rw [hg] at h; cases h
    | some value =>
      rw [hg] at h
      obtain ⟨value', hg', hvalue⟩ := hc _ _ hg
      rw [hg']
      rcases hvalue with rfl | rfl
      · exact Layout.apply_of_empty h _
      · exact ⟨cs, h⟩

theorem mapM_fill_of_fillsOut (hc : context.FillsOut context') {pieces : List Piece}
    {texts : List (List Char)} (h : pieces.mapM (Piece.fill context) = .ok texts) :
    ∃ texts', pieces.mapM (Piece.fill context') = .ok texts' := by
  induction pieces generalizing texts with
  | nil => exact ⟨_, rfl⟩
  | cons piece pieces ih =>
    simp only [List.mapM_cons, bind_eq_ok_iff] at h ⊢
    obtain ⟨text, htext, rest, hrest, -⟩ := h
    obtain ⟨text', htext'⟩ := Piece.fill_of_fillsOut hc htext
    obtain ⟨rest', hrest'⟩ := ih hrest
    exact ⟨_, text', htext', rest', hrest', rfl⟩

/-- A template that can be filled with some values can be filled with longer
ones in place of those that are empty. -/
theorem render_of_fillsOut (hc : context.FillsOut context') {t : Template} {code : String}
    (h : t.render context = .ok code) : ∃ code', t.render context' = .ok code' := by
  rw [render] at h ⊢
  cases hfill : (scan none false t.source.toList).fill context with
  | error fault => rw [hfill] at h; cases h
  | ok cs =>
    rw [Scanned.fill] at hfill ⊢
    obtain ⟨texts, htexts, hend⟩ := bind_eq_ok_iff.1 hfill
    obtain ⟨texts', htexts'⟩ := mapM_fill_of_fillsOut hc htexts
    rw [htexts']
    cases hfault : (scan none false t.source.toList).fault with
    | none => exact ⟨_, rfl⟩
    | some fault => rw [hfault] at hend; cases hend

end Template

namespace Program

/-- Pieces of nodes take the place of an empty text. -/
theorem fillsOut_assemblyContext (target : Target) (name : String) (fragments : List Fragment) :
    (assemblyContext target name []).FillsOut (assemblyContext target name fragments) := by
  intro key value hvalue
  obtain ⟨hname, hbody⟩ := get?_assemblyContext target name fragments
  have hmem : (key, value) ∈ [("expName", target.textLiteral name), ("components", body [])] :=
    get?_ofList hvalue
  simp only [List.mem_cons, List.not_mem_nil, or_false, Prod.mk.injEq] at hmem
  rcases hmem with ⟨rfl, rfl⟩ | ⟨rfl, rfl⟩
  · exact ⟨_, hname, .inr rfl⟩
  · exact ⟨_, hbody, .inl rfl⟩

variable {templates : Template.Collection} {name : String} {fragments : List Fragment}

theorem assemble_eq_error_iff {template : Template} (ha : templates.assembly? = some template)
    {failure : Failure} :
    assemble templates name fragments = .error failure ↔
      ∃ cause, template.render (assemblyContext templates.target name fragments) = .error cause ∧
        failure = .unassembled cause := by
  rw [assemble, ha]
  cases hr : template.render (assemblyContext templates.target name fragments) with
  | ok source => simp [hr]
  | error cause => simp [hr, eq_comm]

theorem assemble_eq_ok_iff {source : String} :
    assemble templates name fragments = .ok source ↔
      ∃ template, templates.assembly? = some template ∧
        template.render (assemblyContext templates.target name fragments) = .ok source := by
  rw [assemble]
  cases templates.assembly? with
  | none => simp
  | some template =>
    cases hr : template.render (assemblyContext templates.target name fragments) <;> simp [hr]

/-- A program that can be put together without pieces can be put together with any. -/
theorem assemble_of_nil {source : String} (h : assemble templates name [] = .ok source)
    (fragments : List Fragment) : ∃ source', assemble templates name fragments = .ok source' := by
  obtain ⟨template, ha, hr⟩ := assemble_eq_ok_iff.1 h
  obtain ⟨source', hr'⟩ :=
    Template.render_of_fillsOut (fillsOut_assemblyContext templates.target name fragments) hr
  exact ⟨source', assemble_eq_ok_iff.2 ⟨template, ha, hr'⟩⟩

end Program

namespace Compiler

/-! ## The rules -/

/-- Why nodes cannot be compiled, in the order of the checks. -/
inductive Fails (c : Compiler) (name : String) (nodes : List Node) (table : Dict Json) : Failure → Prop
  | noAssembly (ha : c.templates.assembly? = none) :
      Fails c name nodes table (.noAssembly c.target.assemblyTemplate)
  /-- All nodes count, also those that would be left out. -/
  | tooManyNodes {template} (ha : c.templates.assembly? = some template)
      (hn : c.maxNodes < nodes.length) :
      Fails c name nodes table (.tooManyNodes nodes.length c.maxNodes)
  | unassembled {template cause} (ha : c.templates.assembly? = some template)
      (hn : nodes.length ≤ c.maxNodes)
      (hr : template.render (Program.assemblyContext c.target name (c.pieces table nodes)) =
        .error cause) :
      Fails c name nodes table (.unassembled cause)

/-- Why the graph of a document cannot be compiled. The document is looked at
only if there is a template for the program. -/
inductive FailsOnDocument (c : Compiler) (name : String) (t : Json) (table : Dict Json) : Failure → Prop
  | noAssembly (ha : c.templates.assembly? = none) :
      FailsOnDocument c name t table (.noAssembly c.target.assemblyTemplate)
  | malformed {template problem problems} (ha : c.templates.assembly? = some template)
      (hp : Shape.graphProblems [] t = problem :: problems) :
      FailsOnDocument c name t table (.malformed (.misshapen (problem :: problems)))
  | graph {graph failure} (hp : Shape.graphProblems [] t = []) (hg : Graph.Stored t graph)
      (h : Fails c name graph.nodes table failure) : FailsOnDocument c name t table failure

variable {c : Compiler} {name : String} {table : Dict Json} {graph : Graph} {failure : Failure}

theorem Fails.isCompileFailure {nodes : List Node} (h : Fails c name nodes table failure) :
    failure.isCompileFailure = true := by
  cases h <;> rfl

theorem FailsOnDocument.isCompileFailure {t : Json} (h : FailsOnDocument c name t table failure) :
    failure.isCompileFailure = true := by
  cases h with
  | noAssembly => rfl
  | malformed => rfl
  | graph hp hg h => exact h.isCompileFailure

/-! ## The compiler follows the rules -/

/-- Compiling nodes that are not too many is putting their pieces together. -/
theorem compileGraph_eq_assemble {template : Template} (ha : c.templates.assembly? = some template)
    (hn : graph.nodes.length ≤ c.maxNodes) :
    c.compileGraph name graph table = .error failure ↔
      Program.assemble c.templates name (c.pieces table graph.nodes) = .error failure := by
  have hpieces : (graph.nodes.map fun node => (node, c.outcome table node)).filterMap fragment? =
      c.pieces table graph.nodes := filterMap_fragment?_outcomes graph.nodes
  simp only [compileGraph, ha, Option.isNone_some, Bool.false_eq_true, if_false, hpieces,
    if_neg (Nat.not_lt.2 hn)]
  cases Program.assemble c.templates name (c.pieces table graph.nodes) <;> simp

theorem fails_of_compileGraph (h : c.compileGraph name graph table = .error failure) :
    Fails c name graph.nodes table failure := by
  cases ha : c.templates.assembly? with
  | none =>
    rw [compileGraph, ha, Option.isNone_none, if_pos rfl] at h
    cases h
    exact .noAssembly ha
  | some template =>
    by_cases hn : c.maxNodes < graph.nodes.length
    · rw [compileGraph, ha, Option.isNone_some, if_neg Bool.false_ne_true, if_pos hn] at h
      cases h
      exact .tooManyNodes ha hn
    · have hle := Nat.not_lt.1 hn
      rw [compileGraph_eq_assemble ha hle, Program.assemble_eq_error_iff ha] at h
      obtain ⟨cause, hr, rfl⟩ := h
      exact .unassembled ha hle hr

theorem Fails.compileGraph_eq (h : Fails c name graph.nodes table failure) :
    c.compileGraph name graph table = .error failure := by
  cases h with
  | noAssembly ha => rw [compileGraph, ha, Option.isNone_none, if_pos rfl]
  | tooManyNodes ha hn =>
    rw [compileGraph, ha, Option.isNone_some, if_neg Bool.false_ne_true, if_pos hn]
  | unassembled ha hn hr =>
    rw [compileGraph_eq_assemble ha hn, Program.assemble_eq_error_iff ha]
    exact ⟨_, hr, rfl⟩

theorem compileGraph_eq_error_iff :
    c.compileGraph name graph table = .error failure ↔ Fails c name graph.nodes table failure :=
  ⟨fails_of_compileGraph, Fails.compileGraph_eq⟩

variable {t : Json}

/-- A document that is a graph is compiled as that graph. -/
theorem compileDocument_eq_compileGraph (hp : Shape.graphProblems [] t = [])
    (hg : Graph.Stored t graph) : c.compileDocument name t table = c.compileGraph name graph table := by
  have hread := (reads_graph.finds t graph).2 ⟨Shape.graphProblems_eq_nil_iff.1 hp, hg⟩
  rw [compileDocument, hread]
  split
  next hnone => rw [compileGraph, if_pos hnone]
  next => rfl

theorem failsOnDocument_of_compileDocument (h : c.compileDocument name t table = .error failure) :
    FailsOnDocument c name t table failure := by
  cases ha : c.templates.assembly? with
  | none =>
    rw [compileDocument, ha, Option.isNone_none, if_pos rfl] at h
    cases h
    exact .noAssembly ha
  | some template =>
    rw [compileDocument, ha, Option.isNone_some, if_neg Bool.false_ne_true] at h
    cases hread : Graph.ofDocument t with
    | error cause =>
      rw [hread] at h
      cases h
      obtain ⟨problem, problems, hp, rfl⟩ := reads_graph.refuses t cause hread
      exact .malformed ha hp
    | ok graph =>
      rw [hread] at h
      obtain ⟨hshape, hg⟩ := (reads_graph.finds t graph).1 hread
      exact .graph (Shape.graphProblems_eq_nil_iff.2 hshape) hg (fails_of_compileGraph h)

theorem FailsOnDocument.compileDocument_eq (h : FailsOnDocument c name t table failure) :
    c.compileDocument name t table = .error failure := by
  cases h with
  | noAssembly ha => rw [compileDocument, ha, Option.isNone_none, if_pos rfl]
  | malformed ha hp =>
    rw [compileDocument, ha, Option.isNone_some, if_neg Bool.false_ne_true, Graph.ofDocument, hp]
  | graph hp hg h => rw [compileDocument_eq_compileGraph hp hg, h.compileGraph_eq]

theorem compileDocument_eq_error_iff :
    c.compileDocument name t table = .error failure ↔ FailsOnDocument c name t table failure :=
  ⟨failsOnDocument_of_compileDocument, FailsOnDocument.compileDocument_eq⟩

/-! ## All compilations -/

/-- An experiment without nodes. -/
def emptyExperiment : Experiment := { graph := { nodes := [], edges := [] }, properties := [] }

/-- Where nothing keeps an experiment without nodes from being compiled, no
nodes fail a compilation. -/
theorem exists_compileGraph {report : Report} (hempty : c.compile name emptyExperiment = .ok report)
    {c' : Compiler} (htarget : c'.target = c.target)
    (hassembly : c'.templates.assembly? = c.templates.assembly?) (table : Dict Json)
    (hn : graph.nodes.length ≤ c'.maxNodes) :
    ∃ report', c'.compileGraph name graph table = .ok report' := by
  obtain ⟨-, source, hs, -⟩ := compileGraph_eq_ok_iff.1 hempty
  obtain ⟨template, ha, hr⟩ := Program.assemble_eq_ok_iff.1 hs
  have hcontext : Program.assemblyContext c'.target name [] = Program.assemblyContext c.target name [] := by
    rw [htarget]
  have hs' : Program.assemble c'.templates name [] = .ok source :=
    Program.assemble_eq_ok_iff.2 ⟨template, hassembly.trans ha, (congrArg _ hcontext).trans hr⟩
  obtain ⟨source', hs'⟩ :=
    Program.assemble_of_nil hs' ((c'.outcomes table graph.nodes).filterMap fragment?)
  exact ⟨_, compileGraph_eq_ok_iff.2 ⟨hn, source', hs', rfl⟩⟩

/-- Compilations end as the rules say. -/
structure FailsByRules (c : Compiler) (name : String) : Prop where
  document : ∀ t table failure,
    c.compileDocument name t table = .error failure ↔ FailsOnDocument c name t table failure
  experiment : ∀ e failure,
    c.compile name e = .error failure ↔ Fails c name e.graph.nodes e.properties failure
  documentOk : ∀ t table, (∃ report, c.compileDocument name t table = .ok report) ↔
    ∀ failure, ¬ FailsOnDocument c name t table failure
  experimentOk : ∀ e, (∃ report, c.compile name e = .ok report) ↔
    ∀ failure, ¬ Fails c name e.graph.nodes e.properties failure
  isCompileFailure : ∀ failure,
    (∃ t table, c.compileDocument name t table = .error failure) ∨
      (∃ e, c.compile name e = .error failure) → failure.isCompileFailure = true
  /-- If an experiment without nodes can be compiled, then all can whose nodes
  are not too many, with whatever kinds, component templates and entries. -/
  isolated : (∃ report, c.compile name emptyExperiment = .ok report) →
    ∀ c' : Compiler, c'.target = c.target → c'.templates.assembly? = c.templates.assembly? →
      ∀ graph table, graph.nodes.length ≤ c'.maxNodes →
        (∃ report, c'.compile name { graph, properties := table } = .ok report) ∧
          ∀ t, Shape.graphProblems [] t = [] → Graph.Stored t graph →
            ∃ report, c'.compileDocument name t table = .ok report

/-- **Compilations fail exactly by the rules**, whatever the templates, the
kinds of components and the bound are. -/
theorem failsByRules (c : Compiler) (name : String) : FailsByRules c name := by
  refine ⟨fun _ _ _ => compileDocument_eq_error_iff, fun _ _ => compileGraph_eq_error_iff,
    fun t table => ?_, fun e => ?_, fun failure h => ?_, ?_⟩
  · simp only [exists_ok_iff, ne_eq, compileDocument_eq_error_iff]
  · simp only [exists_ok_iff, ne_eq, compile, compileGraph_eq_error_iff]
  · rcases h with ⟨t, table, h⟩ | ⟨e, h⟩
    · exact (compileDocument_eq_error_iff.1 h).isCompileFailure
    · exact (compileGraph_eq_error_iff.1 h).isCompileFailure
  · rintro ⟨report, hempty⟩ c' htarget hassembly graph table hn
    have hgraph := exists_compileGraph hempty htarget hassembly table hn
    refine ⟨hgraph, fun t hp hg => ?_⟩
    rw [compileDocument_eq_compileGraph hp hg]
    exact hgraph

/-- A compiler with this template for the program, and these kinds. -/
def framed (source : String) (palette : Component.Palette) : Compiler :=
  { twiceCompiler with templates := .ofList .desktop [("experiment.py", source)], palette }

/-- A graph with one node, which has an odd entry in `oddTable`. -/
def oneNode : Json := .obj [("nodes", .arr [.obj [("id", .str "a"), ("type", .str "twice")]])]

def oddTable : Dict Json := [("a", .bool true)]

/-- Each failure in turn, and a program although its only node is left out. -/
theorem failsByRules_oneNode :
    { framed "" [] with templates := .ofList .desktop [] }.compileDocument "e" .null [] =
        .error (.noAssembly "experiment.py") ∧
      (framed "{missing}" []).compileDocument "e" .null [] =
        .error (.malformed (.misshapen [⟨[], .graphNotObject⟩])) ∧
      { framed "{missing}" [] with maxNodes := 0 }.compileDocument "e" oneNode [] =
        .error (.tooManyNodes 1 0) ∧
      (framed "{missing}" []).compileDocument "e" oneNode [] =
        .error (.unassembled ⟨"experiment.py", .unboundKey "missing"⟩) ∧
      ∃ report, (framed "{components}" [("twice", twiceKind)]).compileDocument "e" oneNode oddTable =
        .ok report := by
  have hp : Shape.graphProblems [] oneNode = [] := by decide +kernel
  have hg : Graph.Stored oneNode { nodes := [Node.bare "a" "twice"], edges := [] } :=
    ⟨⟨_, rfl, .cons ⟨rfl, rfl, .missing⟩ .nil⟩, .missing⟩
  refine ⟨?_, ?_, ?_, ?_, ?_⟩
  · exact ((failsByRules _ _).document ..).2 (.noAssembly rfl)
  · exact ((failsByRules _ _).document ..).2 (.malformed rfl rfl)
  · exact ((failsByRules _ _).document ..).2 (.graph hp hg (.tooManyNodes rfl (by decide)))
  · refine ((failsByRules _ _).document ..).2 (.graph hp hg (.unassembled rfl (by decide) ?_))
    decide +kernel
  · obtain ⟨report, hempty⟩ : ∃ report, (framed "{components}" []).compile "e" emptyExperiment =
        .ok report := ⟨_, compileGraph_eq_ok_iff.2 ⟨by decide, "", rfl, rfl⟩⟩
    exact ((failsByRules _ _).isolated ⟨report, hempty⟩ (framed "{components}" [("twice", twiceKind)])
      rfl rfl _ oddTable (by decide)).2 oneNode hp hg

end Compiler

end FlowScript
