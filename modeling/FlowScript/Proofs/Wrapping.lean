/-
A graph by itself, and the same graph in a document with a table of properties
(`Experiment.document`). Each is read if the other is, what is wrong with the
graph is found in the document one step further down, and what is compiled is
the same (`wraps_document`).
-/
import FlowScript.Proofs.Failures
import FlowScript.Proofs.Places

namespace FlowScript

namespace Shape

/-! ## Problems further down -/

/-- The problem as it is found in a document that has the other one at a location. -/
def Problem.under (at_ : Location) (p : Problem) : Problem := { p with location := at_ ++ p.location }

variable (at_ location : Location)

theorem found_append (violation? : Option Violation) :
    found (at_ ++ location) violation? = (found location violation?).map (Problem.under at_) := by
  cases violation? <;> rfl

theorem nodeProblems_append (t : Json) :
    nodeProblems (at_ ++ location) t = (nodeProblems location t).map (Problem.under at_) := by
  cases t with
  | obj members =>
    simp only [nodeProblems, List.append_assoc, List.map_append, found_append]
  | null | bool | num | str | arr => exact found_append at_ location _

theorem nodesProblems_append (index : Nat) (items : List Json) :
    nodesProblems (at_ ++ location) index items =
      (nodesProblems location index items).map (Problem.under at_) := by
  induction items generalizing index with
  | nil => rfl
  | cons item items ih =>
    simp only [nodesProblems, List.append_assoc, List.map_append, nodeProblems_append, ih]

theorem nodeListProblems_append (member : Option Json) :
    nodeListProblems (at_ ++ location) member =
      (nodeListProblems location member).map (Problem.under at_) := by
  cases member with
  | none => exact found_append at_ location _
  | some t =>
    cases t with
    | arr items => exact nodesProblems_append at_ location 0 items
    | null | bool | num | str | obj => exact found_append at_ location _

/-- A graph has the same problems wherever it stands. -/
theorem graphProblems_append (t : Json) :
    graphProblems (at_ ++ location) t = (graphProblems location t).map (Problem.under at_) := by
  cases t with
  | obj members =>
    simp only [graphProblems, List.append_assoc, List.map_append, nodeListProblems_append, found_append]
  | null | bool | num | str | arr => exact found_append at_ location _

/-- The path to a problem without the sign for the root. -/
def Problem.steps (p : Problem) : String := String.join (p.location.map Step.text)

/-- What is found below a field has a path, which begins with the field. -/
theorem Problem.message_under (name : String) (p : Problem) :
    (p.under [.field name]).message = "$" ++ ("." ++ name) ++ p.steps ++ ": " ++ p.violation.message := by
  have hne : (p.under [.field name]).location ≠ [] := List.cons_ne_nil _ _
  rw [message, if_neg hne, under, Location.text_append]
  simp only [Location.text, List.map_singleton, Step.text, String.join_cons, String.join_nil,
    String.append_empty, steps]

theorem Problem.message_eq (p : Problem) :
    p.message = if p.location = [] then p.violation.message
      else "$" ++ p.steps ++ ": " ++ p.violation.message := rfl

end Shape

/-! ## The two readings -/

open Shape

/-- The document that stores a graph with a table of properties. -/
def Experiment.document (graph : Json) (table : Dict Json) : Json :=
  .obj [("component_props", .obj table), ("react_flow", graph)]

variable {t : Json} {table : Dict Json}

theorem member?_document (t : Json) (table : Dict Json) :
    (Experiment.document t table).member? "react_flow" = some t ∧
      (Experiment.document t table).member? "component_props" = some (.obj table) := by
  constructor <;> simp [Experiment.document, Json.Tree.member?, Json.Tree.members?, Dict.get?_cons]

theorem documentProblems_document (t : Json) (table : Dict Json) :
    documentProblems (Experiment.document t table) =
      (graphProblems [] t).map (Problem.under [.field "react_flow"]) := by
  obtain ⟨hgraph, htable⟩ := member?_document t table
  have hgraph : Dict.get? [("component_props", .obj table), ("react_flow", t)] "react_flow" = some t := hgraph
  have htable : Dict.get? [("component_props", .obj table), ("react_flow", t)] "component_props" =
      some (.obj table) := htable
  rw [Experiment.document, documentProblems, hgraph, htable, ← graphProblems_append]
  exact List.append_nil _

theorem stored_document {e : Experiment} :
    Experiment.Stored (Experiment.document t table) e ↔ Graph.Stored t e.graph ∧ e.properties = table := by
  obtain ⟨hgraph, htable⟩ := member?_document t table
  constructor
  · rintro ⟨⟨graph, hg, hs⟩, hp⟩
    rw [hgraph] at hg
    cases hg
    rw [htable] at hp
    cases hp
    exact ⟨hs, rfl⟩
  · rintro ⟨hs, rfl⟩
    refine ⟨⟨t, hgraph, hs⟩, ?_⟩
    rw [htable]
    exact .given _

/-- The document holds the graph if the graph can be read by itself. -/
theorem ofDocument_document_eq_ok_iff {e : Experiment} :
    Experiment.ofDocument (Experiment.document t table) = .ok e ↔
      Graph.ofDocument t = .ok e.graph ∧ e.properties = table := by
  rw [reads_experiment.finds, reads_graph.finds, ← documentProblems_eq_nil_iff,
    ← @graphProblems_eq_nil_iff [] t, documentProblems_document, List.map_eq_nil_iff,
    stored_document, and_assoc]

theorem ofDocument_document_of_error {fault : Experiment.Fault} (h : Graph.ofDocument t = .error fault)
    (table : Dict Json) :
    fault = .misshapen (graphProblems [] t) ∧
      Experiment.ofDocument (Experiment.document t table) =
        .error (.misshapen ((graphProblems [] t).map (Problem.under [.field "react_flow"]))) := by
  obtain ⟨problem, problems, hp, rfl⟩ := reads_graph.refuses t fault h
  refine ⟨by rw [hp], ?_⟩
  rw [Experiment.ofDocument, documentProblems_document, hp]
  rfl

/-- A graph that is read and compiled by itself as in a document. -/
structure Wraps (t : Json) (table : Dict Json) : Prop where
  accepted : (∃ graph, Graph.ofDocument t = .ok graph) ↔
    ∃ e, Experiment.ofDocument (Experiment.document t table) = .ok e
  refused : ∀ fault, Graph.ofDocument t = .error fault → ∃ problems,
    fault = .misshapen problems ∧
      Experiment.ofDocument (Experiment.document t table) =
        .error (.misshapen (problems.map (Problem.under [.field "react_flow"])))
  /-- A problem is worded alike, only that its path is longer. -/
  worded : ∀ p : Problem,
    (p.message = if p.location = [] then p.violation.message
      else "$" ++ p.steps ++ ": " ++ p.violation.message) ∧
    (p.under [.field "react_flow"]).message =
      "$" ++ ".react_flow" ++ p.steps ++ ": " ++ p.violation.message
  compiled : ∀ e, Experiment.ofDocument (Experiment.document t table) = .ok e →
    ∀ (c : Compiler) name, c.compileDocument name t table = c.compile name e
  notCompiled : ∀ fault, Graph.ofDocument t = .error fault →
    ∀ (c : Compiler) name, c.templates.assembly?.isSome →
      c.compileDocument name t table = .error (.malformed fault)

/-- **A graph means the same by itself and in a document.** -/
theorem wraps_document (t : Json) (table : Dict Json) : Wraps t table := by
  refine ⟨⟨?_, ?_⟩, ?_, ?_, ?_, ?_⟩
  · rintro ⟨graph, hgraph⟩
    exact ⟨{ graph, properties := table }, ofDocument_document_eq_ok_iff.2 ⟨hgraph, rfl⟩⟩
  · rintro ⟨e, he⟩
    exact ⟨e.graph, (ofDocument_document_eq_ok_iff.1 he).1⟩
  · intro fault h
    exact ⟨_, ofDocument_document_of_error h table⟩
  · exact fun p => ⟨p.message_eq, p.message_under "react_flow"⟩
  · intro e he c name
    obtain ⟨hgraph, rfl⟩ := ofDocument_document_eq_ok_iff.1 he
    obtain ⟨hshape, hstored⟩ := (reads_graph.finds t e.graph).1 hgraph
    exact Compiler.compileDocument_eq_compileGraph (graphProblems_eq_nil_iff.2 hshape) hstored
  · intro fault h c name ha
    obtain ⟨template, ha⟩ := Option.isSome_iff_exists.1 ha
    obtain ⟨problem, problems, hp, rfl⟩ := reads_graph.refuses t fault h
    exact (Compiler.FailsOnDocument.malformed ha hp).compileDocument_eq

example :
    Experiment.ofDocument (Experiment.document .null []) =
      .error (.misshapen [⟨[.field "react_flow"], .graphNotObject⟩]) := rfl

end FlowScript
