/-
Experiments written down and read again. A document writes an experiment if it
has all members of the format, in whatever order (`Experiment.Writes`). Nothing
but an empty id can be wrong with such a document, and without one the
experiment is read back from it. So what any document stores can be written
down once more, in a normal form that leaves nothing out and has nothing else
(`Experiment.IsNormal`); a document is in that form just if it comes back as it
is (`roundTrips_documents`).
-/
import FlowScript.Program.Compiler
import FlowScript.Proofs.Stored

namespace FlowScript

/-! ## Writing -/

/-- The document with the members of its outermost object in order. -/
def Json.Tree.inOrder : Json → Json
  | .obj members => .obj (Dict.ofList members)
  | t => t

/-- The document that a node is stored as, its members in order. -/
def Node.toDocument (node : Node) : Json := node.toJson.inOrder

def Graph.toDocument (graph : Graph) : Json :=
  Json.Tree.inOrder (.obj [("nodes", .arr (graph.nodes.map Node.toDocument)), ("edges", .arr graph.edges)])

def Experiment.toDocument (e : Experiment) : Json :=
  Json.Tree.inOrder (.obj [("react_flow", e.graph.toDocument), ("component_props", .obj e.properties)])

/-- A document with all members of a node. -/
structure Node.Writes (t : Json) (node : Node) : Prop where
  id : t.member? "id" = some (.str node.id)
  type : t.member? "type" = some (.str node.type)
  data : t.member? "data" = some (.obj node.data)

/-- A document with all members of a graph. -/
structure Graph.Writes (t : Json) (graph : Graph) : Prop where
  nodes : ∃ items, t.member? "nodes" = some (.arr items) ∧ List.Forall₂ Node.Writes items graph.nodes
  edges : t.member? "edges" = some (.arr graph.edges)

/-- A document with all members of an experiment. -/
structure Experiment.Writes (t : Json) (e : Experiment) : Prop where
  graph : ∃ graph, t.member? "react_flow" = some graph ∧ Graph.Writes graph e.graph
  properties : t.member? "component_props" = some (.obj e.properties)

theorem Node.toDocument_eq (node : Node) :
    node.toDocument = .obj [("data", .obj node.data), ("id", .str node.id), ("type", .str node.type)] := by
  have htype : ¬ "type" < "id" := by decide +kernel
  have hdata : "data" < "id" := by decide +kernel
  simp only [toDocument, toJson, Json.Tree.inOrder, Dict.ofList, Dict.insertAll, List.foldl_cons, List.foldl_nil,
    Dict.insert, String.reduceEq, if_false, if_neg htype, if_pos hdata]

theorem Graph.toDocument_eq (graph : Graph) :
    graph.toDocument =
      .obj [("edges", .arr graph.edges), ("nodes", .arr (graph.nodes.map Node.toDocument))] := by
  have hedges : "edges" < "nodes" := by decide +kernel
  simp only [toDocument, Json.Tree.inOrder, Dict.ofList, Dict.insertAll, List.foldl_cons, List.foldl_nil,
    Dict.insert, String.reduceEq, if_false, if_pos hedges]

theorem Experiment.toDocument_eq (e : Experiment) :
    e.toDocument = .obj [("component_props", .obj e.properties), ("react_flow", e.graph.toDocument)] := by
  have hproperties : "component_props" < "react_flow" := by decide +kernel
  simp only [toDocument, Json.Tree.inOrder, Dict.ofList, Dict.insertAll, List.foldl_cons, List.foldl_nil,
    Dict.insert, String.reduceEq, if_false, if_pos hproperties]

/-! ## Either order of the members -/

theorem Node.writes_toJson (node : Node) : Writes node.toJson node :=
  ⟨rfl, rfl, rfl⟩

theorem Node.writes_toDocument (node : Node) : Writes node.toDocument node := by
  rw [toDocument_eq]
  exact ⟨rfl, rfl, rfl⟩

theorem Graph.writes_of_map {write : Node → Json} (hwrite : ∀ node, Node.Writes (write node) node) {t : Json}
    {graph : Graph} (hnodes : t.member? "nodes" = some (.arr (graph.nodes.map write)))
    (hedges : t.member? "edges" = some (.arr graph.edges)) : Writes t graph := by
  refine ⟨⟨_, hnodes, ?_⟩, hedges⟩
  rw [List.forall₂_map_left_iff]
  exact List.forall₂_same.2 fun node _ => hwrite node

theorem Graph.writes_toJson (graph : Graph) : Writes graph.toJson graph :=
  writes_of_map Node.writes_toJson rfl rfl

theorem Graph.writes_toDocument (graph : Graph) : Writes graph.toDocument graph := by
  rw [toDocument_eq]
  exact writes_of_map Node.writes_toDocument rfl rfl

theorem Experiment.writes_toJson (e : Experiment) : Writes e.toJson e :=
  ⟨⟨_, rfl, e.graph.writes_toJson⟩, rfl⟩

theorem Experiment.writes_toDocument (e : Experiment) : Writes e.toDocument e := by
  rw [toDocument_eq]
  exact ⟨⟨_, rfl, e.graph.writes_toDocument⟩, rfl⟩

/-! ## Reading what is written -/

theorem Node.Writes.stored {t : Json} {node : Node} (h : Writes t node) : Stored t node :=
  ⟨h.id, h.type, h.data ▸ .given node.data⟩

theorem Graph.Writes.stored {t : Json} {graph : Graph} (h : Writes t graph) : Stored t graph := by
  obtain ⟨items, hitems, hnodes⟩ := h.nodes
  exact ⟨⟨items, hitems, hnodes.imp fun _ _ hnode => hnode.stored⟩, h.edges ▸ .given graph.edges⟩

theorem Experiment.Writes.stored {t : Json} {e : Experiment} (h : Writes t e) : Stored t e := by
  obtain ⟨graph, hgraph, hwrites⟩ := h.graph
  exact ⟨⟨graph, hgraph, hwrites.stored⟩, h.properties ▸ .given e.properties⟩

namespace Shape

/-- The empty ids among nodes that are written from `index` on. -/
def emptyIds (index : Nat) : List Node → List Problem
  | [] => []
  | node :: nodes =>
    found [.field "react_flow", .field "nodes", .item index, .field "id"] (textViolation? true (some (.str node.id)))
      ++ emptyIds (index + 1) nodes

theorem emptyIds_eq_nil_iff {index : Nat} {nodes : List Node} :
    emptyIds index nodes = [] ↔ ∀ node ∈ nodes, node.id ≠ "" := by
  induction nodes generalizing index with
  | nil => simp [emptyIds]
  | cons node nodes ih =>
    rw [emptyIds, List.append_eq_nil_iff, found_eq_nil_iff, textViolation?_eq_none_iff, ih, List.forall_mem_cons]
    simp

theorem obj_of_member? {t u : Json} {key : String} (h : t.member? key = some u) : ∃ members, t = .obj members := by
  cases t with
  | obj members => exact ⟨members, rfl⟩
  | null | bool | num | str | arr => cases h

theorem nodeProblems_of_writes {t : Json} {node : Node} (h : Node.Writes t node) (at_ : Location) :
    nodeProblems at_ t = found (at_ ++ [.field "id"]) (textViolation? true (some (.str node.id))) := by
  obtain ⟨members, rfl⟩ := obj_of_member? h.id
  have hid : Dict.get? members "id" = _ := h.id
  have htype : Dict.get? members "type" = _ := h.type
  have hdata : Dict.get? members "data" = _ := h.data
  rw [nodeProblems, hid, htype, hdata]
  exact (List.append_nil _).trans (List.append_nil _)

theorem nodesProblems_of_writes {items : List Json} {nodes : List Node} (h : List.Forall₂ Node.Writes items nodes)
    (index : Nat) : nodesProblems [.field "react_flow", .field "nodes"] index items = emptyIds index nodes := by
  induction h generalizing index with
  | nil => rfl
  | cons hnode _ ih => rw [nodesProblems, nodeProblems_of_writes hnode, ih, emptyIds]; rfl

theorem graphProblems_of_writes {t : Json} {graph : Graph} (h : Graph.Writes t graph) :
    graphProblems [.field "react_flow"] t = emptyIds 0 graph.nodes := by
  obtain ⟨items, hitems, hnodes⟩ := h.nodes
  obtain ⟨members, rfl⟩ := obj_of_member? hitems
  have hitems : Dict.get? members "nodes" = _ := hitems
  have hedges : Dict.get? members "edges" = _ := h.edges
  rw [graphProblems, hitems, hedges, ← nodesProblems_of_writes hnodes]
  exact List.append_nil _

/-- Nothing is wrong with what is written but the empty ids. -/
theorem documentProblems_of_writes {t : Json} {e : Experiment} (h : Experiment.Writes t e) :
    documentProblems t = emptyIds 0 e.graph.nodes := by
  obtain ⟨graph, hgraph, hwrites⟩ := h.graph
  obtain ⟨members, rfl⟩ := obj_of_member? hgraph
  have hgraph : Dict.get? members "react_flow" = _ := hgraph
  have hproperties : Dict.get? members "component_props" = _ := h.properties
  rw [documentProblems, hgraph, hproperties, ← graphProblems_of_writes hwrites]
  exact List.append_nil _

end Shape

namespace Experiment

variable {t : Json} {e : Experiment}

/-- What is written is read back, or refused for its empty ids. -/
theorem Writes.ofDocument_eq (h : Writes t e) :
    ofDocument t = match Shape.emptyIds 0 e.graph.nodes with
      | [] => .ok e
      | problems => .error (.misshapen problems) := by
  rw [ofDocument, Shape.documentProblems_of_writes h, Experiment.ofJson?_eq_some_iff.2 h.stored]
  rfl

theorem Writes.ofDocument_eq_ok (h : Writes t e) (hids : ∀ node ∈ e.graph.nodes, node.id ≠ "") :
    ofDocument t = .ok e := by
  rw [h.ofDocument_eq, Shape.emptyIds_eq_nil_iff.2 hids]

theorem Writes.ofDocument_eq_error_iff (h : Writes t e) {fault : Fault} :
    ofDocument t = .error fault ↔
      (∃ node ∈ e.graph.nodes, node.id = "") ∧ fault = .misshapen (Shape.emptyIds 0 e.graph.nodes) := by
  have hempty : (∃ node ∈ e.graph.nodes, node.id = "") ↔ Shape.emptyIds 0 e.graph.nodes ≠ [] := by
    rw [Ne, Shape.emptyIds_eq_nil_iff]
    simp
  rw [h.ofDocument_eq, hempty]
  cases Shape.emptyIds 0 e.graph.nodes with
  | nil => simp
  | cons problem problems => simp [eq_comm]

theorem ids_of_stored {items : List Json} {nodes : List Node} (h : List.Forall₂ Node.Stored items nodes)
    (hshapes : ∀ item ∈ items, Shape.IsNode item) : ∀ node ∈ nodes, node.id ≠ "" := by
  induction h with
  | nil => exact nofun
  | cons hnode _ ih =>
    obtain ⟨hshape, hshapes⟩ := List.forall_mem_cons.1 hshapes
    obtain ⟨id, hid, hne⟩ := hshape.id
    rw [hnode.id] at hid
    cases hid
    exact List.forall_mem_cons.2 ⟨hne, ih hshapes⟩

/-- No node of an experiment that is read has an empty id. -/
theorem ids_of_ofDocument (h : ofDocument t = .ok e) : ∀ node ∈ e.graph.nodes, node.id ≠ "" := by
  obtain ⟨hshape, hstored⟩ := (reads_experiment.finds t e).1 h
  obtain ⟨graph, hgraph, hgraphShape⟩ := hshape.graph
  obtain ⟨items, hitems, hshapes⟩ := hgraphShape.nodes
  obtain ⟨graph', hgraph', hstores⟩ := hstored.graph
  rw [hgraph] at hgraph'
  cases hgraph'
  obtain ⟨items', hitems', hnodes⟩ := hstores.nodes
  rw [hitems] at hitems'
  cases hitems'
  exact ids_of_stored hnodes hshapes

end Experiment

/-! ## Normal forms -/

/-- A document of a node with just the members of the format, none of them null. -/
def Node.IsNormal (t : Json) : Prop :=
  ∃ data id type, t = .obj [("data", .obj data), ("id", .str id), ("type", .str type)] ∧ id ≠ ""

def Graph.IsNormal (t : Json) : Prop :=
  ∃ edges items, t = .obj [("edges", .arr edges), ("nodes", .arr items)] ∧ ∀ item ∈ items, Node.IsNormal item

namespace Experiment

def IsNormal (t : Json) : Prop :=
  ∃ table graph, t = .obj [("component_props", .obj table), ("react_flow", graph)] ∧ Graph.IsNormal graph

/-- The document written down again as what is read from it. -/
def normalized (t : Json) : Except Fault Json := (ofDocument t).map toDocument

end Experiment

theorem Node.isNormal_iff {t : Json} : IsNormal t ↔ ∃ node : Node, node.toDocument = t ∧ node.id ≠ "" := by
  constructor
  · intro h
    obtain ⟨data, id, type, rfl, hid⟩ := h
    exact ⟨{ id, type, data }, toDocument_eq _, hid⟩
  · intro h
    obtain ⟨node, rfl, hid⟩ := h
    exact ⟨_, _, _, node.toDocument_eq, hid⟩

theorem forall_isNormal_iff {items : List Json} :
    (∀ item ∈ items, Node.IsNormal item) ↔
      ∃ nodes : List Node, nodes.map Node.toDocument = items ∧ ∀ node ∈ nodes, node.id ≠ "" := by
  constructor
  · intro h
    induction items with
    | nil => exact ⟨[], rfl, nofun⟩
    | cons item items ih =>
      obtain ⟨hitem, hitems⟩ := List.forall_mem_cons.1 h
      obtain ⟨node, rfl, hid⟩ := Node.isNormal_iff.1 hitem
      obtain ⟨nodes, rfl, hids⟩ := ih hitems
      exact ⟨node :: nodes, rfl, List.forall_mem_cons.2 ⟨hid, hids⟩⟩
  · intro h
    obtain ⟨nodes, rfl, hids⟩ := h
    exact List.forall_mem_map.2 fun node hnode => Node.isNormal_iff.2 ⟨node, rfl, hids node hnode⟩

namespace Experiment

/-- The normal forms are what experiments are written as. -/
theorem isNormal_iff {t : Json} :
    IsNormal t ↔ ∃ e : Experiment, e.toDocument = t ∧ ∀ node ∈ e.graph.nodes, node.id ≠ "" := by
  constructor
  · intro h
    obtain ⟨table, graph, rfl, edges, items, rfl, hitems⟩ := h
    obtain ⟨nodes, rfl, hids⟩ := forall_isNormal_iff.1 hitems
    refine ⟨{ graph := { nodes, edges }, properties := table }, ?_, hids⟩
    rw [toDocument_eq, Graph.toDocument_eq]
  · intro h
    obtain ⟨e, rfl, hids⟩ := h
    refine ⟨_, _, e.toDocument_eq, _, _, e.graph.toDocument_eq, ?_⟩
    exact forall_isNormal_iff.2 ⟨_, rfl, hids⟩

theorem normalized_eq_ok_iff {t t' : Json} :
    normalized t = .ok t' ↔ ∃ e, ofDocument t = .ok e ∧ e.toDocument = t' := by
  rw [normalized]
  cases ofDocument t <;> simp [Except.map]

theorem normalized_eq_self_iff {t : Json} : normalized t = .ok t ↔ IsNormal t := by
  rw [normalized_eq_ok_iff, isNormal_iff]
  constructor
  · intro h
    obtain ⟨e, hread, hwritten⟩ := h
    exact ⟨e, hwritten, ids_of_ofDocument hread⟩
  · intro h
    obtain ⟨e, rfl, hids⟩ := h
    exact ⟨e, e.writes_toDocument.ofDocument_eq_ok hids, rfl⟩

/-! ## There and back -/

/-- An experiment that is written down and read again. -/
structure RoundTrips (e : Experiment) : Prop where
  read : (∀ node ∈ e.graph.nodes, node.id ≠ "") → ofDocument e.toDocument = .ok e
  refused : (∃ fault, ofDocument e.toDocument = .error fault) ↔ ∃ node ∈ e.graph.nodes, node.id = ""
  /-- Every id that is empty is reported, and nothing else. -/
  reported : ∀ fault, ofDocument e.toDocument = .error fault →
    fault = .misshapen (Shape.emptyIds 0 e.graph.nodes)
  /-- Nothing depends on the order in which the members are written. -/
  reordered : ofDocument e.toJson = ofDocument e.toDocument

/-- A document that is read and written down again as another one. -/
structure Normalizes (t t' : Json) : Prop where
  /-- What is missing or null in the one is empty in the other, and all else is the same. -/
  kept : ∃ e, Stored t e ∧ Writes t' e
  /-- Nothing is left out and there is nothing else. -/
  normal : IsNormal t'
  same : ofDocument t' = ofDocument t
  settled : normalized t' = .ok t'
  compiled : ∀ (c : Compiler) name e e', ofDocument t = .ok e → ofDocument t' = .ok e' →
    c.compile name e' = c.compile name e

theorem roundTrips (e : Experiment) : RoundTrips e where
  read := e.writes_toDocument.ofDocument_eq_ok
  refused := by simp [e.writes_toDocument.ofDocument_eq_error_iff]
  reported := fun _ h => (e.writes_toDocument.ofDocument_eq_error_iff.1 h).2
  reordered := e.writes_toJson.ofDocument_eq.trans e.writes_toDocument.ofDocument_eq.symm

theorem normalizes_of_normalized {t t' : Json} (h : normalized t = .ok t') : Normalizes t t' := by
  obtain ⟨e, hread, rfl⟩ := normalized_eq_ok_iff.1 h
  have hids := ids_of_ofDocument hread
  have hagain : ofDocument e.toDocument = .ok e := e.writes_toDocument.ofDocument_eq_ok hids
  have hnormal : IsNormal e.toDocument := isNormal_iff.2 ⟨e, rfl, hids⟩
  refine ⟨⟨e, ((reads_experiment.finds t e).1 hread).2, e.writes_toDocument⟩, hnormal, hagain.trans hread.symm,
    normalized_eq_self_iff.2 hnormal, ?_⟩
  intro c name e₁ e₂ h₁ h₂
  rw [hread] at h₁
  rw [hagain] at h₂
  cases h₁
  cases h₂
  rfl

/-- **Stored documents round-trip.** What is written for an experiment is read
as that experiment, unless a node has an empty id. Every document that is read
has a normal form, which is written for what is read from it: it is read and
compiled alike and is its own normal form, and documents in that shape are the
only ones that are. -/
theorem roundTrips_documents :
    (∀ e : Experiment, RoundTrips e) ∧
      ∀ t, ((∃ e, ofDocument t = .ok e) ↔ ∃ t', normalized t = .ok t') ∧
        (∀ t', normalized t = .ok t' → Normalizes t t') ∧ (normalized t = .ok t ↔ IsNormal t) := by
  refine ⟨roundTrips, fun t => ⟨?_, fun _ => normalizes_of_normalized, normalized_eq_self_iff⟩⟩
  simp [normalized_eq_ok_iff]

/-- Two nodes with one id, data or a type left out, null for the edges, no
properties and a member that is not of the format. -/
def sparse : Json :=
  .obj [("react_flow", .obj
      [("edges", .null),
        ("nodes", .arr [.obj [("id", .str "a"), ("type", .str "")],
          .obj [("data", .obj [("x", .null)]), ("id", .str "a"), ("type", .str "text")]])]),
    ("version", .bool true)]

/-- The experiment in `sparse`. -/
def sparseExperiment : Experiment :=
  { graph := { nodes := [Node.bare "a" "", { id := "a", type := "text", data := [("x", .null)] }], edges := [] }
    properties := [] }

theorem roundTrips_documents_sparse :
    normalized sparse = .ok sparseExperiment.toDocument ∧ Normalizes sparse sparseExperiment.toDocument ∧
      ofDocument sparseExperiment.toDocument = .ok sparseExperiment ∧
      (∃ fault, ofDocument (Experiment.mk ⟨[Node.bare "a" "", Node.bare "" "text"], []⟩ []).toDocument =
        .error fault) := by
  obtain ⟨htrips, hnormalizes⟩ := roundTrips_documents
  have hnormalized : normalized sparse = .ok sparseExperiment.toDocument := rfl
  refine ⟨hnormalized, (hnormalizes sparse).2.1 _ hnormalized, (htrips sparseExperiment).read ?_, ?_⟩
  · simp [sparseExperiment, Node.bare]
  · exact (htrips _).refused.2 ⟨Node.bare "" "text", by simp, rfl⟩

end Experiment

end FlowScript
