/-
Documents of experiments: what shape they have (`Shape.IsDocument`) and what
they store (`Experiment.Stored`), said without the reader. The reader looks
for problems first and converts afterwards. It finds no problem exactly in the
documents of that shape (`documentProblems_eq_nil_iff`), and these are among
those it can convert, so it refuses a document only with a list of its
problems (`reads_ofDocument`). The same holds of graphs by themselves.
-/
import FlowScript.Experiment.Document
import Mathlib.Data.List.Forall2

namespace FlowScript

/-! ## Shapes -/

namespace Shape

/-- A member that is of some kind, if it is neither missing nor null. -/
def IsOptional (kind : Json.Kind) : Option Json → Prop
  | none => True
  | some t => t.kind = .null ∨ t.kind = kind

/-- The shape of a node: an object with an id that is not empty, a type, and
data that may be missing or null. -/
structure IsNode (t : Json) : Prop where
  object : t.kind = .object
  id : ∃ id, t.member? "id" = some (.str id) ∧ id ≠ ""
  type : ∃ type, t.member? "type" = some (.str type)
  data : IsOptional .object (t.member? "data")

/-- The shape of a graph: an object with a list of nodes, and edges that may
be missing or null. -/
structure IsGraph (t : Json) : Prop where
  object : t.kind = .object
  nodes : ∃ items, t.member? "nodes" = some (.arr items) ∧ ∀ item ∈ items, IsNode item
  edges : IsOptional .list (t.member? "edges")

/-- The shape of a stored experiment: an object with a graph, and a table of
properties that may be missing or null. -/
structure IsDocument (t : Json) : Prop where
  object : t.kind = .object
  graph : ∃ graph, t.member? "react_flow" = some graph ∧ IsGraph graph
  properties : IsOptional .object (t.member? "component_props")

end Shape

/-! ## Contents -/

/-- What a member holds: the items of a list or an object, and nothing if it
is missing or null. -/
inductive Holds {α : Type} (form : List α → Json) : Option Json → List α → Prop
  | missing : Holds form none []
  | null : Holds form (some .null) []
  | given (items : List α) : Holds form (some (form items)) items

/-- The node that a document stores. -/
structure Node.Stored (t : Json) (node : Node) : Prop where
  id : t.member? "id" = some (.str node.id)
  type : t.member? "type" = some (.str node.type)
  data : Holds .obj (t.member? "data") node.data

/-- The graph that a document stores, with one node for each item of its list. -/
structure Graph.Stored (t : Json) (graph : Graph) : Prop where
  nodes : ∃ items, t.member? "nodes" = some (.arr items) ∧ List.Forall₂ Node.Stored items graph.nodes
  edges : Holds .arr (t.member? "edges") graph.edges

/-- The experiment that a document stores. -/
structure Experiment.Stored (t : Json) (e : Experiment) : Prop where
  graph : ∃ graph, t.member? "react_flow" = some graph ∧ Graph.Stored graph e.graph
  properties : Holds .obj (t.member? "component_props") e.properties

/-! ## Problems -/

namespace Shape

theorem found_eq_nil_iff {location : Location} {violation? : Option Violation} :
    found location violation? = [] ↔ violation? = none := by
  cases violation? <;> simp [found]

theorem textViolation?_eq_none_iff {nonEmpty : Bool} {member : Option Json} :
    textViolation? nonEmpty member = none ↔
      ∃ s, member = some (.str s) ∧ (nonEmpty = true → s ≠ "") := by
  cases member with
  | none => simp [textViolation?]
  | some t =>
    cases t with
    | str s => cases nonEmpty <;> simp [textViolation?]
    | null | bool | num | arr | obj => simp [textViolation?]

theorem objectViolation?_eq_none_iff {violation : Violation} {member : Option Json} :
    objectViolation? violation member = none ↔ IsOptional .object member := by
  cases member with
  | none => simp [objectViolation?, IsOptional]
  | some t => cases t <;> simp [objectViolation?, IsOptional, Json.Tree.kind]

theorem listViolation?_eq_none_iff {violation : Violation} {member : Option Json} :
    listViolation? violation member = none ↔ IsOptional .list member := by
  cases member with
  | none => simp [listViolation?, IsOptional]
  | some t => cases t <;> simp [listViolation?, IsOptional, Json.Tree.kind]

/-- A node has no problems, wherever it stands, if it has the shape of one. -/
theorem nodeProblems_eq_nil_iff {at_ : Location} {t : Json} : nodeProblems at_ t = [] ↔ IsNode t := by
  cases t with
  | obj members =>
    simp only [nodeProblems, List.append_eq_nil_iff, found_eq_nil_iff, textViolation?_eq_none_iff,
      objectViolation?_eq_none_iff]
    constructor
    · rintro ⟨⟨⟨id, hid, hne⟩, type, htype, -⟩, hdata⟩
      exact ⟨rfl, ⟨id, hid, hne trivial⟩, ⟨type, htype⟩, hdata⟩
    · rintro ⟨-, ⟨id, hid, hne⟩, ⟨type, htype⟩, hdata⟩
      exact ⟨⟨⟨id, hid, fun _ => hne⟩, type, htype, nofun⟩, hdata⟩
  | null | bool | num | str | arr =>
    simp only [nodeProblems, found_eq_nil_iff, reduceCtorEq, false_iff]
    exact fun h => nomatch h.object

theorem nodesProblems_eq_nil_iff {at_ : Location} {index : Nat} {nodes : List Json} :
    nodesProblems at_ index nodes = [] ↔ ∀ node ∈ nodes, IsNode node := by
  induction nodes generalizing index with
  | nil => simp [nodesProblems]
  | cons node nodes ih =>
    rw [nodesProblems, List.append_eq_nil_iff, nodeProblems_eq_nil_iff, ih, List.forall_mem_cons]

theorem nodeListProblems_eq_nil_iff {at_ : Location} {member : Option Json} :
    nodeListProblems at_ member = [] ↔
      ∃ items, member = some (.arr items) ∧ ∀ item ∈ items, IsNode item := by
  cases member with
  | none => simp [nodeListProblems, found_eq_nil_iff]
  | some t =>
    cases t with
    | arr items => simp [nodeListProblems, nodesProblems_eq_nil_iff]
    | null | bool | num | str | obj => simp [nodeListProblems, found_eq_nil_iff]

theorem graphProblems_eq_nil_iff {at_ : Location} {t : Json} : graphProblems at_ t = [] ↔ IsGraph t := by
  cases t with
  | obj members =>
    simp only [graphProblems, List.append_eq_nil_iff, nodeListProblems_eq_nil_iff, found_eq_nil_iff,
      listViolation?_eq_none_iff]
    exact ⟨fun ⟨hnodes, hedges⟩ => ⟨rfl, hnodes, hedges⟩, fun h => ⟨h.nodes, h.edges⟩⟩
  | null | bool | num | str | arr =>
    simp only [graphProblems, found_eq_nil_iff, reduceCtorEq, false_iff]
    exact fun h => nomatch h.object

theorem documentProblems_eq_nil_iff {t : Json} : documentProblems t = [] ↔ IsDocument t := by
  cases t with
  | obj members =>
    have hshape : IsDocument (.obj members) ↔
        (∃ graph, Dict.get? members "react_flow" = some graph ∧ IsGraph graph) ∧
          IsOptional .object (Dict.get? members "component_props") :=
      ⟨fun h => ⟨h.graph, h.properties⟩, fun ⟨hgraph, htable⟩ => ⟨rfl, hgraph, htable⟩⟩
    rw [hshape, documentProblems, List.append_eq_nil_iff, found_eq_nil_iff, objectViolation?_eq_none_iff]
    refine and_congr ?_ Iff.rfl
    cases Dict.get? members "react_flow" with
    | none => simp [found_eq_nil_iff]
    | some graph => simp [graphProblems_eq_nil_iff]
  | null | bool | num | str | arr =>
    simp only [documentProblems, found_eq_nil_iff, reduceCtorEq, false_iff]
    exact fun h => nomatch h.object

end Shape

/-! ## Conversion -/

theorem tableOrEmpty_eq_some_iff {member : Option Json} {members : Dict Json} :
    Experiment.tableOrEmpty member = some members ↔ Holds .obj member members := by
  constructor
  · intro h
    cases member with
    | none => cases h; exact .missing
    | some t =>
      cases t with
      | null => cases h; exact .null
      | obj => cases h; exact .given _
      | bool | num | str | arr => cases h
  · intro h
    cases h <;> rfl

theorem listOrEmpty_eq_some_iff {member : Option Json} {items : List Json} :
    Experiment.listOrEmpty member = some items ↔ Holds .arr member items := by
  constructor
  · intro h
    cases member with
    | none => cases h; exact .missing
    | some t =>
      cases t with
      | null => cases h; exact .null
      | arr => cases h; exact .given _
      | bool | num | str | obj => cases h
  · intro h
    cases h <;> rfl

/-- Converting a node finds the node that is stored. -/
theorem Node.ofJson?_eq_some_iff {t : Json} {node : Node} :
    Node.ofJson? t = some node ↔ Node.Stored t node := by
  cases t with
  | obj members =>
    simp only [ofJson?, Json.Tree.members?, Option.bind_eq_bind, Option.bind_eq_some_iff,
      Json.Tree.text?_eq_some_iff, tableOrEmpty_eq_some_iff, Option.some.injEq, exists_eq_left']
    constructor
    · rintro ⟨id, ⟨_, hid, rfl⟩, type, ⟨_, htype, rfl⟩, data, hdata, rfl⟩
      exact ⟨hid, htype, hdata⟩
    · rintro ⟨hid, htype, hdata⟩
      exact ⟨_, ⟨_, hid, rfl⟩, _, ⟨_, htype, rfl⟩, _, hdata, rfl⟩
  | null | bool | num | str | arr => exact ⟨nofun, fun h => nomatch h.id⟩

theorem mapM_ofJson?_eq_some_iff {items : List Json} {nodes : List Node} :
    items.mapM Node.ofJson? = some nodes ↔ List.Forall₂ Node.Stored items nodes := by
  induction items generalizing nodes with
  | nil => simp [eq_comm]
  | cons item items ih =>
    simp only [List.mapM_cons, Option.bind_eq_bind, Option.bind_eq_some_iff, ih,
      Node.ofJson?_eq_some_iff, List.forall₂_cons_left_iff]
    constructor
    · rintro ⟨node, hnode, rest, hrest, he⟩
      exact ⟨node, rest, hnode, hrest, (Option.some.inj he).symm⟩
    · rintro ⟨node, rest, hnode, hrest, rfl⟩
      exact ⟨node, hnode, rest, hrest, rfl⟩

theorem Graph.ofJson?_eq_some_iff {t : Json} {graph : Graph} :
    Graph.ofJson? t = some graph ↔ Graph.Stored t graph := by
  cases t with
  | obj members =>
    simp only [ofJson?, Json.Tree.members?, Option.bind_eq_bind, Option.bind_eq_some_iff,
      Json.Tree.items?_eq_some_iff, mapM_ofJson?_eq_some_iff, listOrEmpty_eq_some_iff,
      Option.some.injEq, exists_eq_left']
    constructor
    · rintro ⟨items, ⟨_, hitems, rfl⟩, nodes, hnodes, edges, hedges, rfl⟩
      exact ⟨⟨items, hitems, hnodes⟩, hedges⟩
    · rintro ⟨⟨items, hitems, hnodes⟩, hedges⟩
      exact ⟨items, ⟨_, hitems, rfl⟩, _, hnodes, _, hedges, rfl⟩
  | null | bool | num | str | arr => exact ⟨nofun, fun ⟨⟨_, h, _⟩, _⟩ => nomatch h⟩

theorem Experiment.ofJson?_eq_some_iff {t : Json} {e : Experiment} :
    Experiment.ofJson? t = some e ↔ Experiment.Stored t e := by
  cases t with
  | obj members =>
    simp only [ofJson?, Json.Tree.members?, Option.bind_eq_bind, Option.bind_eq_some_iff,
      Graph.ofJson?_eq_some_iff, tableOrEmpty_eq_some_iff, Option.some.injEq, exists_eq_left']
    constructor
    · rintro ⟨graph, ⟨doc, hdoc, hgraph⟩, properties, hproperties, rfl⟩
      exact ⟨⟨doc, hdoc, hgraph⟩, hproperties⟩
    · rintro ⟨⟨doc, hdoc, hgraph⟩, hproperties⟩
      exact ⟨_, ⟨doc, hdoc, hgraph⟩, _, hproperties, rfl⟩
  | null | bool | num | str | arr => exact ⟨nofun, fun ⟨⟨_, h, _⟩, _⟩ => nomatch h⟩

/-! ## Documents of the right shape -/

namespace Shape

/-- A member of the kind of some form holds items of that form. -/
theorem exists_holds_iff {α : Type} {form : List α → Json} {kind : Json.Kind}
    (hform : ∀ t : Json, t.kind = kind ↔ ∃ items, t = form items) {member : Option Json} :
    (∃ items, Holds form member items) ↔ IsOptional kind member := by
  constructor
  · rintro ⟨items, hitems⟩
    cases hitems with
    | missing => exact trivial
    | null => exact .inl rfl
    | given => exact .inr ((hform _).2 ⟨items, rfl⟩)
  · intro h
    cases member with
    | none => exact ⟨[], .missing⟩
    | some t =>
      rcases h with hnull | hkind
      · cases t with
        | null => exact ⟨[], .null⟩
        | bool | num | str | arr | obj => cases hnull
      · obtain ⟨items, rfl⟩ := (hform t).1 hkind
        exact ⟨items, .given items⟩

theorem kind_eq_object_iff {t : Json} : t.kind = .object ↔ ∃ members, t = .obj members := by
  cases t <;> simp [Json.Tree.kind]

theorem kind_eq_list_iff {t : Json} : t.kind = .list ↔ ∃ items, t = .arr items := by
  cases t <;> simp [Json.Tree.kind]

theorem IsNode.exists_stored {t : Json} (h : IsNode t) : ∃ node, Node.Stored t node := by
  obtain ⟨id, hid, -⟩ := h.id
  obtain ⟨type, htype⟩ := h.type
  obtain ⟨data, hdata⟩ := (exists_holds_iff fun _ => kind_eq_object_iff).2 h.data
  exact ⟨{ id, type, data }, hid, htype, hdata⟩

theorem exists_forall₂_stored {items : List Json} (h : ∀ item ∈ items, IsNode item) :
    ∃ nodes, List.Forall₂ Node.Stored items nodes := by
  induction items with
  | nil => exact ⟨[], .nil⟩
  | cons item items ih =>
    obtain ⟨hitem, hitems⟩ := List.forall_mem_cons.1 h
    obtain ⟨node, hnode⟩ := hitem.exists_stored
    obtain ⟨nodes, hnodes⟩ := ih hitems
    exact ⟨node :: nodes, .cons hnode hnodes⟩

theorem IsGraph.exists_stored {t : Json} (h : IsGraph t) : ∃ graph, Graph.Stored t graph := by
  obtain ⟨items, hitems, hshapes⟩ := h.nodes
  obtain ⟨nodes, hnodes⟩ := exists_forall₂_stored hshapes
  obtain ⟨edges, hedges⟩ := (exists_holds_iff fun _ => kind_eq_list_iff).2 h.edges
  exact ⟨{ nodes, edges }, ⟨items, hitems, hnodes⟩, hedges⟩

theorem IsDocument.exists_stored {t : Json} (h : IsDocument t) : ∃ e, Experiment.Stored t e := by
  obtain ⟨doc, hdoc, hshape⟩ := h.graph
  obtain ⟨graph, hgraph⟩ := hshape.exists_stored
  obtain ⟨properties, hproperties⟩ := (exists_holds_iff fun _ => kind_eq_object_iff).2 h.properties
  exact ⟨{ graph, properties }, ⟨doc, hdoc, hgraph⟩, hproperties⟩

end Shape

/-! ## Reading -/

/-- A reader that accepts the documents of a shape, finds in them what they
store, and refuses all others with a list of problems. -/
structure Reads {α : Type} (read : Json → Except Experiment.Fault α)
    (problems : Json → List Shape.Problem) (shape : Json → Prop) (stores : Json → α → Prop) : Prop where
  accepts : ∀ t, (∃ a, read t = .ok a) ↔ shape t
  finds : ∀ t a, read t = .ok a ↔ shape t ∧ stores t a
  refuses : ∀ t fault, read t = .error fault →
    ∃ problem rest, problems t = problem :: rest ∧ fault = .misshapen (problem :: rest)

/-- To look for problems first and to convert afterwards reads documents, if
the documents without problems are among those that convert. -/
theorem reads_of_problems {α : Type} {read : Json → Except Experiment.Fault α}
    {problems : Json → List Shape.Problem} {convert : Json → Option α} {shape : Json → Prop}
    {stores : Json → α → Prop}
    (hread : ∀ t, read t = match problems t with
      | [] => (convert t).elim (.error .unconvertible) .ok
      | problems => .error (.misshapen problems))
    (hproblems : ∀ {t}, problems t = [] ↔ shape t)
    (hconvert : ∀ {t a}, convert t = some a ↔ stores t a)
    (htotal : ∀ {t}, shape t → ∃ a, stores t a) : Reads read problems shape stores := by
  have hfinds : ∀ t a, read t = .ok a ↔ shape t ∧ stores t a := by
    intro t a
    rw [hread, ← hproblems, ← hconvert]
    cases problems t with
    | nil => cases convert t <;> simp
    | cons problem rest => simp
  refine ⟨fun t => ?_, hfinds, fun t fault h => ?_⟩
  · simp only [hfinds, exists_and_left]
    exact ⟨And.left, fun hs => ⟨hs, htotal hs⟩⟩
  · cases hp : problems t with
    | nil =>
      obtain ⟨a, ha⟩ := htotal (hproblems.1 hp)
      rw [(hfinds t a).2 ⟨hproblems.1 hp, ha⟩] at h
      cases h
    | cons problem rest =>
      rw [hread, hp] at h
      cases h
      exact ⟨problem, rest, rfl, rfl⟩

theorem reads_graph : Reads Graph.ofDocument (Shape.graphProblems []) Shape.IsGraph Graph.Stored :=
  reads_of_problems (fun _ => rfl) Shape.graphProblems_eq_nil_iff Graph.ofJson?_eq_some_iff
    Shape.IsGraph.exists_stored

theorem reads_experiment :
    Reads Experiment.ofDocument Shape.documentProblems Shape.IsDocument Experiment.Stored :=
  reads_of_problems (fun _ => rfl) Shape.documentProblems_eq_nil_iff Experiment.ofJson?_eq_some_iff
    Shape.IsDocument.exists_stored

/-- **Documents are checked and converted alike.** An experiment is read from
the documents of its shape and from no others, it is what they store, and all
others are refused with their problems; and so is a graph by itself. -/
theorem reads_ofDocument :
    Reads Experiment.ofDocument Shape.documentProblems Shape.IsDocument Experiment.Stored ∧
      Reads Graph.ofDocument (Shape.graphProblems []) Shape.IsGraph Graph.Stored :=
  ⟨reads_experiment, reads_graph⟩

end FlowScript
