/-
Compiling node by node. A node adds one thing to a report, its piece of the
program or the finding that leaves it out, and what that is depends on the
node and its own entry in the table of properties alone (`share`). A report
has what its nodes add, in order, and nothing that one node adds changes with
the others (`isolates_of_compileGraph`). The names that nodes bind are held
against each other, but what is found about them leaves no node out.
-/
import FlowScript.Proofs.Findings

namespace FlowScript

/-- The findings that leave a node out. -/
def Report.omissions (r : Report) : List Finding := r.findings.filter Finding.omits

namespace Compiler

/-! ## What a node adds -/

/-- A table of properties with one entry at most. -/
def entryTable (id : String) (entry : Option Json) : Dict Json := (entry.map fun t => (id, t)).toList

/-- What an outcome adds to a report. -/
def Outcome.share (node : Node) : Outcome → Fragment ⊕ Finding
  | .unknownType => .inr ⟨node.id, node.type, .unknownType⟩
  | .failed cause => .inr ⟨node.id, node.type, .failed cause⟩
  | .emitted code _ => .inl { nodeId := node.id, code }

/-- What a node adds to a report, by itself and its entry in the table. -/
def share (c : Compiler) (node : Node) (entry : Option Json) : Fragment ⊕ Finding :=
  (c.outcome (entryTable node.id entry) node).share node

/-- The pieces of nodes, in order. -/
def pieces (c : Compiler) (table : Dict Json) (nodes : List Node) : List Fragment :=
  nodes.filterMap fun node => (c.share node (table.get? node.id)).getLeft?

/-- The findings that leave nodes out, in order. -/
def omissions (c : Compiler) (table : Dict Json) (nodes : List Node) : List Finding :=
  nodes.filterMap fun node => (c.share node (table.get? node.id)).getRight?

variable {c : Compiler} {table table' : Dict Json} {node : Node}

theorem get?_entryTable (id : String) (entry : Option Json) : (entryTable id entry).get? id = entry := by
  cases entry <;> simp [entryTable, Dict.get?_cons]

/-- Of a table, only a node's own entry tells what becomes of the node. -/
theorem outcome_congr (h : table.get? node.id = table'.get? node.id) :
    c.outcome table node = c.outcome table' node := by
  simp only [outcome, Node.oddEntry?, Node.resolve, Node.properties, h]

theorem share_get? : c.share node (table.get? node.id) = (c.outcome table node).share node := by
  rw [share, outcome_congr (get?_entryTable node.id (table.get? node.id))]

theorem pieces_cons (node : Node) (nodes : List Node) :
    c.pieces table (node :: nodes) =
      (c.share node (table.get? node.id)).getLeft?.toList ++ c.pieces table nodes := by
  rw [pieces, List.filterMap_cons]
  cases (c.share node (table.get? node.id)).getLeft? <;> rfl

theorem omissions_cons (node : Node) (nodes : List Node) :
    c.omissions table (node :: nodes) =
      (c.share node (table.get? node.id)).getRight?.toList ++ c.omissions table nodes := by
  rw [omissions, List.filterMap_cons]
  cases (c.share node (table.get? node.id)).getRight? <;> rfl

theorem pieces_append (front rest : List Node) :
    c.pieces table (front ++ rest) = c.pieces table front ++ c.pieces table rest :=
  List.filterMap_append

theorem omissions_append (front rest : List Node) :
    c.omissions table (front ++ rest) = c.omissions table front ++ c.omissions table rest :=
  List.filterMap_append

/-- Every node adds a piece or an omission, and not both. -/
theorem length_pieces_add_length_omissions (nodes : List Node) :
    (c.pieces table nodes).length + (c.omissions table nodes).length = nodes.length := by
  induction nodes with
  | nil => rfl
  | cons node nodes ih =>
    rw [pieces_cons, omissions_cons, List.length_append, List.length_append, List.length_cons]
    cases c.share node (table.get? node.id) with
    | inl piece =>
      change 1 + _ + (0 + _) = _
      omega
    | inr finding =>
      change 0 + _ + (1 + _) = _
      omega

/-! ## Reports -/

theorem filterMap_fragment?_outcomes (nodes : List Node) :
    (c.outcomes table nodes).filterMap fragment? = c.pieces table nodes := by
  rw [outcomes, List.filterMap_map, pieces]
  congr 1
  funext node
  rw [Function.comp_apply, share_get?]
  cases c.outcome table node <;> rfl

/-- What is found about a name leaves no node out. -/
theorem omits_nameFindings {target : Target} {bound : Bindings} {name : String} {what : Finding.What}
    (h : what ∈ nameFindings target bound name) (id type : String) :
    Finding.omits ⟨id, type, what⟩ = false := by
  rw [nameFindings, List.mem_append] at h
  rcases h with h | h
  · split at h
    · rw [List.mem_singleton.1 h]; rfl
    · cases h
  · obtain ⟨first, -, rfl⟩ := Option.map_eq_some_iff.1 (Option.mem_toList.1 h)
    rfl

theorem filter_omits_outcomeFindings (target : Target) (bound : Bindings) (node : Node)
    (outcome : Outcome) :
    ((outcomeFindings target bound outcome).map (⟨node.id, node.type, ·⟩)).filter Finding.omits =
      (outcome.share node).getRight?.toList := by
  cases outcome with
  | unknownType => rfl
  | failed cause => rfl
  | emitted code names =>
    change _ = []
    rw [List.filter_eq_nil_iff, List.forall_mem_map]
    intro what hwhat
    obtain ⟨name, -, hname⟩ := List.mem_flatMap.1 hwhat
    rw [omits_nameFindings hname]
    exact Bool.false_ne_true

/-- Whatever names are bound before, the same nodes are left out. -/
theorem filter_omits_findings (target : Target) (bound : Bindings) (nodes : List Node) :
    (findings target bound (c.outcomes table nodes)).filter Finding.omits = c.omissions table nodes := by
  induction nodes generalizing bound with
  | nil => rfl
  | cons node nodes ih =>
    have ih := ih (bound ++ (c.outcome table node).names.map fun name => (name, node.id))
    rw [omissions_cons, share_get?, ← ih]
    exact (List.filter_append ..).trans (congrArg (· ++ _) (filter_omits_outcomeFindings ..))

variable {name : String} {graph : Graph} {report : Report}

theorem fragments_eq_pieces (h : c.compileGraph name graph table = .ok report) :
    report.fragments = c.pieces table graph.nodes := by
  rw [fragments_of_compileGraph h, filterMap_fragment?_outcomes]

theorem omissions_eq_omissions (h : c.compileGraph name graph table = .ok report) :
    report.omissions = c.omissions table graph.nodes := by
  rw [Report.omissions, findings_of_compileGraph h, filter_omits_findings]

/-- Every node is a fragment or is left out. -/
theorem length_fragments_add_omitted (h : c.compileGraph name graph table = .ok report) :
    report.fragments.length + report.omitted = graph.nodes.length := by
  have htotal : (c.pieces table graph.nodes).length + (c.omissions table graph.nodes).length =
      graph.nodes.length := length_pieces_add_length_omissions graph.nodes
  rwa [← fragments_eq_pieces h, ← omissions_eq_omissions h] at htotal

/-- Edges and entries of other nodes play no part. -/
theorem compileGraph_congr {graph' : Graph} (name : String) (hnodes : graph'.nodes = graph.nodes)
    (htable : ∀ node ∈ graph.nodes, table'.get? node.id = table.get? node.id) :
    c.compileGraph name graph' table' = c.compileGraph name graph table := by
  have houtcomes : (graph.nodes.map fun node => (node, c.outcome table' node)) =
      graph.nodes.map fun node => (node, c.outcome table node) :=
    List.map_congr_left fun node hnode => by rw [outcome_congr (htable node hnode)]
  simp only [compileGraph, hnodes, houtcomes]

/-! ## Two reports -/

/-- In a report, the node between `front` and `rest` is emitted with some code. -/
structure EmitsAt (c : Compiler) (table : Dict Json) (report : Report) (front : List Node) (node : Node)
    (rest : List Node) (code : String) : Prop where
  fragments : report.fragments =
    c.pieces table front ++ { nodeId := node.id, code } :: c.pieces table rest
  omissions : report.omissions = c.omissions table front ++ c.omissions table rest

/-- In a report, the node between `front` and `rest` is left out with some finding. -/
structure OmitsAt (c : Compiler) (table : Dict Json) (report : Report) (front : List Node) (node : Node)
    (rest : List Node) (what : Finding.What) : Prop where
  fragments : report.fragments = c.pieces table front ++ c.pieces table rest
  omissions : report.omissions =
    c.omissions table front ++ ⟨node.id, node.type, what⟩ :: c.omissions table rest

theorem emitsAt_of_share (h : c.compileGraph name graph table = .ok report) {front rest : List Node}
    (hnodes : graph.nodes = front ++ node :: rest) {code : String}
    (hs : c.share node (table.get? node.id) = .inl { nodeId := node.id, code }) :
    EmitsAt c table report front node rest code := by
  refine ⟨?_, ?_⟩
  · rw [fragments_eq_pieces h, hnodes, pieces_append, pieces_cons, hs]
    rfl
  · rw [omissions_eq_omissions h, hnodes, omissions_append, omissions_cons, hs]
    rfl

theorem omitsAt_of_share (h : c.compileGraph name graph table = .ok report) {front rest : List Node}
    (hnodes : graph.nodes = front ++ node :: rest) {what : Finding.What}
    (hs : c.share node (table.get? node.id) = .inr ⟨node.id, node.type, what⟩) :
    OmitsAt c table report front node rest what := by
  refine ⟨?_, ?_⟩
  · rw [fragments_eq_pieces h, hnodes, pieces_append, pieces_cons, hs]
    rfl
  · rw [omissions_eq_omissions h, hnodes, omissions_append, omissions_cons, hs]
    rfl

/-- A share is a piece of the node or a finding about it. -/
theorem share_cases (c : Compiler) (node : Node) (entry : Option Json) :
    (∃ code, c.share node entry = .inl { nodeId := node.id, code }) ∨
      ∃ what, c.share node entry = .inr ⟨node.id, node.type, what⟩ := by
  rw [share]
  cases c.outcome (entryTable node.id entry) node with
  | unknownType => exact .inr ⟨_, rfl⟩
  | failed cause => exact .inr ⟨_, rfl⟩
  | emitted code names => exact .inl ⟨_, rfl⟩

/-- A report in which no node depends on the others. -/
structure Isolates (c : Compiler) (name : String) (graph : Graph) (table : Dict Json)
    (report : Report) : Prop where
  /-- The pieces are the nodes, filtered and mapped one by one. -/
  fragments : report.fragments =
    graph.nodes.filterMap fun node => (c.share node (table.get? node.id)).getLeft?
  /-- The findings that leave nodes out are those of the other nodes. -/
  omissions : report.omissions =
    graph.nodes.filterMap fun node => (c.share node (table.get? node.id)).getRight?
  total : report.fragments.length + report.omitted = graph.nodes.length
  /-- A node that two graphs have, with the same entry, becomes the same in
  both, wherever it stands and whatever the other nodes are. -/
  same : ∀ {name' graph' table' report'}, c.compileGraph name' graph' table' = .ok report' →
    ∀ {node front rest front' rest'}, graph.nodes = front ++ node :: rest →
      graph'.nodes = front' ++ node :: rest' → table.get? node.id = table'.get? node.id →
      (∃ code, EmitsAt c table report front node rest code ∧
        EmitsAt c table' report' front' node rest' code) ∨
      ∃ what, OmitsAt c table report front node rest what ∧
        OmitsAt c table' report' front' node rest' what
  /-- One graph behind another has the pieces of both. -/
  append : ∀ {name₁ graph₁ report₁ name₂ graph₂ report₂},
    c.compileGraph name₁ graph₁ table = .ok report₁ → c.compileGraph name₂ graph₂ table = .ok report₂ →
      graph.nodes = graph₁.nodes ++ graph₂.nodes →
      report.fragments = report₁.fragments ++ report₂.fragments
  /-- The report is that of all graphs with these nodes and all tables with
  the same entries for them. -/
  unchanged : ∀ {graph' table'}, graph'.nodes = graph.nodes →
    (∀ node ∈ graph.nodes, table'.get? node.id = table.get? node.id) →
      c.compileGraph name graph' table' = .ok report

/-- **Compiling isolates the nodes**, whatever the templates and the kinds of
components are: what a node adds to a report is its piece or the finding that
leaves it out, by itself and its own entry in the table alone. -/
theorem isolates_of_compileGraph (h : c.compileGraph name graph table = .ok report) :
    Isolates c name graph table report := by
  refine ⟨fragments_eq_pieces h, omissions_eq_omissions h, ?_, ?_, ?_, ?_⟩
  · have htotal : (c.pieces table graph.nodes).length + (c.omissions table graph.nodes).length =
        graph.nodes.length := length_pieces_add_length_omissions graph.nodes
    rwa [← fragments_eq_pieces h, ← omissions_eq_omissions h] at htotal
  · intro name' graph' table' report' h' node front rest front' rest' hnodes hnodes' hentry
    rcases share_cases c node (table.get? node.id) with ⟨code, hs⟩ | ⟨what, hs⟩
    · exact .inl ⟨code, emitsAt_of_share h hnodes hs, emitsAt_of_share h' hnodes' (hentry ▸ hs)⟩
    · exact .inr ⟨what, omitsAt_of_share h hnodes hs, omitsAt_of_share h' hnodes' (hentry ▸ hs)⟩
  · intro name₁ graph₁ report₁ name₂ graph₂ report₂ h₁ h₂ hnodes
    rw [fragments_eq_pieces h, fragments_eq_pieces h₁, fragments_eq_pieces h₂, hnodes, pieces_append]
  · intro graph' table' hnodes htable
    rw [compileGraph_congr name hnodes htable, h]

/-- A node of `twiceGraph`, before a node of an unknown type. -/
def fewerGraph : Graph :=
  { nodes := [(Node.bare "d" "twice").withLabel "x", Node.bare "q" "thrice"], edges := [.null] }

/-- The node that collides in the one graph is emitted in both, with the same code. -/
theorem isolates_twiceGraph :
    ∃ report report', twiceCompiler.compileGraph "e" twiceGraph [("a", .bool true)] = .ok report ∧
      twiceCompiler.compileGraph "f" fewerGraph [("a", .null), ("q", .bool true)] = .ok report' ∧
      report.fragments.length + report.omitted = 5 ∧
      EmitsAt twiceCompiler [("a", .bool true)] report (twiceGraph.nodes.take 3)
        ((Node.bare "d" "twice").withLabel "x") (twiceGraph.nodes.drop 4) "pass" ∧
      EmitsAt twiceCompiler [("a", .null), ("q", .bool true)] report' []
        ((Node.bare "d" "twice").withLabel "x") [Node.bare "q" "thrice"] "pass" := by
  have h : twiceCompiler.compileGraph "e" twiceGraph [("a", .bool true)] = .ok _ :=
    compileGraph_eq_ok_iff.2 ⟨by decide, "pass\n\npass\n\npass", rfl, rfl⟩
  have h' : twiceCompiler.compileGraph "f" fewerGraph [("a", .null), ("q", .bool true)] = .ok _ :=
    compileGraph_eq_ok_iff.2 ⟨by decide, "pass", rfl, rfl⟩
  have hi := isolates_of_compileGraph h
  have hpieces : (twiceCompiler.outcomes [("a", .null), ("q", .bool true)] fewerGraph.nodes).filterMap
      fragment? = [{ nodeId := "d", code := "pass" }] := by decide +kernel
  have hrest : twiceCompiler.pieces [("a", .null), ("q", .bool true)] [Node.bare "q" "thrice"] = [] := by
    decide +kernel
  have hnodes : twiceGraph.nodes = twiceGraph.nodes.take 3 ++
      (Node.bare "d" "twice").withLabel "x" :: twiceGraph.nodes.drop 4 := rfl
  have hnodes' : fewerGraph.nodes =
      [] ++ (Node.bare "d" "twice").withLabel "x" :: [Node.bare "q" "thrice"] := rfl
  refine ⟨_, _, h, h', hi.total, ?_⟩
  rcases hi.same h' hnodes hnodes' rfl with ⟨code, he, he'⟩ | ⟨what, -, ho'⟩
  · have hcode := hpieces.symm.trans he'.fragments
    rw [hrest] at hcode
    cases hcode
    exact ⟨he, he'⟩
  · have hcode := hpieces.symm.trans ho'.fragments
    rw [hrest] at hcode
    cases hcode

end Compiler

end FlowScript
