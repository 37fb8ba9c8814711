/-
What the problems of a document say. The walk that collects them reports a
place exactly if something is wrong there, once, in the order of the document,
whatever is wrong with other nodes (`reports_documentProblems`). The message
has one line for each problem, because neither paths nor reasons have an end
of line.
-/
import FlowScript.Proofs.Places
import FlowScript.Proofs.Stored
import FlowScript.Text.Split
import Mathlib.Data.List.Nodup

namespace FlowScript

namespace Shape

variable {t : Json} {place : Place} {member : Option Json} {violation : Violation}

/-! ## What is reported -/

/-- What is a problem of a document. -/
def IsProblem (t : Json) (p : Problem) : Prop :=
  ∃ place member, Stands t place member ∧ Wrong place member p.violation ∧ p.location = place.location

variable {p : Problem} {location : Location} {i : Nat}

theorem mem_found_iff {violation? : Option Violation} :
    p ∈ found location violation? ↔ p.location = location ∧ violation? = some p.violation := by
  obtain ⟨l, v⟩ := p
  cases violation? with
  | none => simp [found]
  | some v' => simp [found, eq_comm]

theorem idViolation?_eq_some_iff (i : Nat) :
    textViolation? true member = some violation ↔ Wrong (.id i) member violation := by
  constructor
  · intro h
    cases member with
    | none => cases h; exact .noId
    | some t =>
      cases t with
      | str s =>
        by_cases hs : s = ""
        · subst hs; cases h; exact .emptyId
        · simp [textViolation?, hs] at h
      | null | bool | num | arr | obj => cases h; exact .id (by rintro ⟨⟩)
  · intro h
    cases h with
    | noId => rfl
    | emptyId => rfl
    | @id t _ hk => cases t <;> first | rfl | exact absurd rfl hk

theorem typeViolation?_eq_some_iff (i : Nat) :
    textViolation? false member = some violation ↔ Wrong (.type i) member violation := by
  constructor
  · intro h
    cases member with
    | none => cases h; exact .noType
    | some t =>
      cases t with
      | str s => cases h
      | null | bool | num | arr | obj => cases h; exact .type (by rintro ⟨⟩)
  · intro h
    cases h with
    | noType => rfl
    | @type t _ hk => cases t <;> first | rfl | exact absurd rfl hk

/-- What may be missing or null is wrong if it is something else than an object. -/
theorem objectViolation?_eq_some_iff {wrong : Violation} :
    objectViolation? wrong member = some violation ↔
      ∃ t, member = some t ∧ t.kind ≠ .null ∧ t.kind ≠ .object ∧ violation = wrong := by
  cases member with
  | none => simp [objectViolation?]
  | some t => cases t <;> simp [objectViolation?, Json.Tree.kind, eq_comm]

theorem listViolation?_eq_some_iff {wrong : Violation} :
    listViolation? wrong member = some violation ↔
      ∃ t, member = some t ∧ t.kind ≠ .null ∧ t.kind ≠ .list ∧ violation = wrong := by
  cases member with
  | none => simp [listViolation?]
  | some t => cases t <;> simp [listViolation?, Json.Tree.kind, eq_comm]

theorem wrong_data_iff :
    Wrong (.data i) member violation ↔
      ∃ t, member = some t ∧ t.kind ≠ .null ∧ t.kind ≠ .object ∧ violation = .dataNotObject := by
  constructor
  · rintro ⟨⟩
    exact ⟨_, rfl, ‹_›, ‹_›, rfl⟩
  · rintro ⟨t, rfl, hn, ho, rfl⟩
    exact .data hn ho

theorem wrong_table_iff :
    Wrong .table member violation ↔
      ∃ t, member = some t ∧ t.kind ≠ .null ∧ t.kind ≠ .object ∧ violation = .tableNotObject := by
  constructor
  · rintro ⟨⟩
    exact ⟨_, rfl, ‹_›, ‹_›, rfl⟩
  · rintro ⟨t, rfl, hn, ho, rfl⟩
    exact .table hn ho

theorem wrong_edges_iff :
    Wrong .edges member violation ↔
      ∃ t, member = some t ∧ t.kind ≠ .null ∧ t.kind ≠ .list ∧ violation = .edgesNotList := by
  constructor
  · rintro ⟨⟩
    exact ⟨_, rfl, ‹_›, ‹_›, rfl⟩
  · rintro ⟨t, rfl, hn, hl, rfl⟩
    exact .edges hn hl

/-- What is found at a place where something is wrong is a problem. -/
theorem isProblem_of_wrong (hs : Stands t place member) (hw : Wrong place member violation)
    (h : p ∈ found place.location (some violation)) : IsProblem t p := by
  obtain ⟨hl, hv⟩ := mem_found_iff.1 h
  cases hv
  exact ⟨place, member, hs, hw, hl⟩

theorem isProblem_of_mem_nodeProblems {item : Json} (hi : Stands t (.node i) (some item))
    (h : p ∈ nodeProblems (Place.node i).location item) : IsProblem t p := by
  cases item with
  | obj members =>
    simp only [nodeProblems, List.mem_append, mem_found_iff] at h
    rcases h with (⟨hl, hv⟩ | ⟨hl, hv⟩) | ⟨hl, hv⟩
    · exact ⟨.id i, _, .id hi rfl, (idViolation?_eq_some_iff i).1 hv, hl⟩
    · exact ⟨.type i, _, .type hi rfl, (typeViolation?_eq_some_iff i).1 hv, hl⟩
    · exact ⟨.data i, _, .data hi rfl, wrong_data_iff.2 (objectViolation?_eq_some_iff.1 hv), hl⟩
  | null | bool | num | str | arr => exact isProblem_of_wrong hi (.node (by rintro ⟨⟩)) h

/-- The problems of a list of nodes are those of its nodes. -/
theorem mem_nodesProblems_iff {index : Nat} {nodes : List Json} :
    p ∈ nodesProblems location index nodes ↔
      ∃ i item, nodes[i]? = some item ∧ p ∈ nodeProblems (location ++ [.item (index + i)]) item := by
  induction nodes generalizing index with
  | nil => simp [nodesProblems]
  | cons node nodes ih =>
    rw [nodesProblems, List.mem_append, ih]
    constructor
    · rintro (h | ⟨i, item, hi, h⟩)
      · exact ⟨0, node, rfl, h⟩
      · exact ⟨i + 1, item, hi, by rwa [Nat.add_right_comm] at h⟩
    · rintro ⟨i, item, hi, h⟩
      cases i with
      | zero =>
        cases hi
        exact .inl h
      | succ i => exact .inr ⟨i, item, hi, by rwa [Nat.add_right_comm]⟩

theorem isProblem_of_mem_graphProblems {graph : Json} (hg : Stands t .graph (some graph))
    (h : p ∈ graphProblems Place.graph.location graph) : IsProblem t p := by
  cases graph with
  | obj members =>
    rcases List.mem_append.1 h with h | h
    · have hnodes : Stands t .nodes (Dict.get? members "nodes") := .nodes hg rfl
      cases hm : Dict.get? members "nodes" with
      | none =>
        rw [hm] at h hnodes
        exact isProblem_of_wrong hnodes .noNodes h
      | some nodes =>
        rw [hm] at h hnodes
        cases nodes with
        | arr items =>
          obtain ⟨i, item, hi, h⟩ := mem_nodesProblems_iff.1 h
          rw [Nat.zero_add] at h
          exact isProblem_of_mem_nodeProblems (.node hnodes hi) h
        | null | bool | num | str | obj => exact isProblem_of_wrong hnodes (.nodes (by rintro ⟨⟩)) h
    · obtain ⟨hl, hv⟩ := mem_found_iff.1 h
      exact ⟨.edges, _, .edges hg rfl, wrong_edges_iff.2 (listViolation?_eq_some_iff.1 hv), hl⟩
  | null | bool | num | str | arr => exact isProblem_of_wrong hg (.graph (by rintro ⟨⟩)) h

theorem isProblem_of_mem (h : p ∈ documentProblems t) : IsProblem t p := by
  cases t with
  | obj members =>
    rcases List.mem_append.1 h with h | h
    · have hgraph : Stands (.obj members) .graph (Dict.get? members "react_flow") := .graph rfl
      cases hm : Dict.get? members "react_flow" with
      | none =>
        rw [hm] at h hgraph
        exact isProblem_of_wrong hgraph .noGraph h
      | some graph =>
        rw [hm] at h hgraph
        exact isProblem_of_mem_graphProblems hgraph h
    · obtain ⟨hl, hv⟩ := mem_found_iff.1 h
      exact ⟨.table, _, .table rfl, wrong_table_iff.2 (objectViolation?_eq_some_iff.1 hv), hl⟩
  | null | bool | num | str | arr => exact isProblem_of_wrong .document (.document (by rintro ⟨⟩)) h

/-- What is reported of what stands at a place, and of all it contains. -/
def reportedFrom : Place → Option Json → List Problem
  | .document, member => member.elim [] documentProblems
  | .graph, member =>
    member.elim (found Place.graph.location (some .noGraph)) (graphProblems Place.graph.location)
  | .nodes, member => nodeListProblems Place.nodes.location member
  | .node i, member => member.elim [] (nodeProblems (Place.node i).location)
  | .id i, member => found (Place.id i).location (textViolation? true member)
  | .type i, member => found (Place.type i).location (textViolation? false member)
  | .data i, member => found (Place.data i).location (objectViolation? .dataNotObject member)
  | .edges, member => found Place.edges.location (listViolation? .edgesNotList member)
  | .table, member => found Place.table.location (objectViolation? .tableNotObject member)

theorem Wrong.mem_reportedFrom (h : Wrong place member violation) :
    ⟨place.location, violation⟩ ∈ reportedFrom place member := by
  have hfound : ∀ {violation? : Option Violation}, violation? = some violation →
      ⟨place.location, violation⟩ ∈ found place.location violation? := by
    intro violation? hv
    exact mem_found_iff.2 ⟨rfl, hv⟩
  cases h with
  | noGraph | noNodes | noId | emptyId | noType => exact hfound rfl
  | @id t i h => exact hfound ((idViolation?_eq_some_iff i).2 (.id h))
  | @type t i h => exact hfound ((typeViolation?_eq_some_iff i).2 (.type h))
  | data hn h => exact hfound (objectViolation?_eq_some_iff.2 ⟨_, rfl, hn, h, rfl⟩)
  | edges hn h => exact hfound (listViolation?_eq_some_iff.2 ⟨_, rfl, hn, h, rfl⟩)
  | table hn h => exact hfound (objectViolation?_eq_some_iff.2 ⟨_, rfl, hn, h, rfl⟩)
  | @document t h | @graph t h | @nodes t h | @node t _ h =>
    cases t <;> first | exact hfound rfl | exact absurd rfl h

/-- What is wrong with a part of a document is wrong with the document. -/
theorem Stands.reportedFrom_subset (h : Stands t place member) :
    reportedFrom place member ⊆ documentProblems t := by
  induction h with
  | document => exact List.Subset.refl _
  | graph h =>
    obtain ⟨members, rfl⟩ := kind_eq_object_iff.1 h
    intro p hp
    refine List.mem_append_left _ ?_
    change p ∈ reportedFrom .graph (Dict.get? members "react_flow") at hp
    cases hm : Dict.get? members "react_flow" with
    | none => rwa [hm] at hp
    | some graph => rwa [hm] at hp
  | table h =>
    obtain ⟨members, rfl⟩ := kind_eq_object_iff.1 h
    exact List.subset_append_right _ _
  | nodes hg h ih =>
    obtain ⟨members, rfl⟩ := kind_eq_object_iff.1 h
    exact List.Subset.trans (List.subset_append_left _ _) ih
  | edges hg h ih =>
    obtain ⟨members, rfl⟩ := kind_eq_object_iff.1 h
    exact List.Subset.trans (List.subset_append_right _ _) ih
  | @node items item i hn hi ih =>
    intro p hp
    exact ih (mem_nodesProblems_iff.2 ⟨i, item, hi, by rw [Nat.zero_add]; exact hp⟩)
  | id hi h ih =>
    obtain ⟨members, rfl⟩ := kind_eq_object_iff.1 h
    intro p hp
    exact ih (List.mem_append_left _ (List.mem_append_left _ hp))
  | type hi h ih =>
    obtain ⟨members, rfl⟩ := kind_eq_object_iff.1 h
    intro p hp
    exact ih (List.mem_append_left _ (List.mem_append_right _ hp))
  | data hi h ih =>
    obtain ⟨members, rfl⟩ := kind_eq_object_iff.1 h
    intro p hp
    exact ih (List.mem_append_right _ hp)

/-- A document is reported for its problems and for nothing else. -/
theorem mem_documentProblems_iff : p ∈ documentProblems t ↔ IsProblem t p := by
  constructor
  · exact isProblem_of_mem
  · rintro ⟨place, member, hs, hw, hl⟩
    obtain ⟨location, violation⟩ := p
    cases hl
    exact hs.reportedFrom_subset hw.mem_reportedFrom

/-! ## The order -/

/-- The path to a problem. -/
def Problem.path (p : Problem) : String := Location.text p.location

/-- The order of the document on problems. -/
def Problem.Before (p q : Problem) : Prop :=
  ∃ place place' : Place, p.path = place.path ∧ q.path = place'.path ∧ place.rank < place'.rank

theorem before_of_location {p q : Problem} {place place' : Place} (hp : p.location = place.location)
    (hq : q.location = place'.location) (h : place.rank < place'.rank) : p.Before q := by
  refine ⟨place, place', ?_, ?_, h⟩
  · rw [Problem.path, hp, Place.text_location]
  · rw [Problem.path, hq, Place.text_location]

theorem pairwise_found {R : Problem → Problem → Prop} {violation? : Option Violation} :
    (found location violation?).Pairwise R := by
  cases violation? with
  | none => exact .nil
  | some v => exact List.pairwise_singleton R _

/-- What is reported of a node is reported at one of its places. -/
theorem place_of_mem_nodeProblems {item : Json} (h : p ∈ nodeProblems (Place.node i).location item) :
    ∃ place : Place, p.location = place.location ∧ place.index? = some i := by
  cases item with
  | obj members =>
    simp only [nodeProblems, List.mem_append, mem_found_iff] at h
    rcases h with (⟨hl, -⟩ | ⟨hl, -⟩) | ⟨hl, -⟩
    · exact ⟨.id i, hl, rfl⟩
    · exact ⟨.type i, hl, rfl⟩
    · exact ⟨.data i, hl, rfl⟩
  | null | bool | num | str | arr => exact ⟨.node i, (mem_found_iff.1 h).1, rfl⟩

theorem place_of_mem_nodesProblems {index : Nat} {items : List Json}
    (h : p ∈ nodesProblems Place.nodes.location index items) :
    ∃ (place : Place) (i : Nat), p.location = place.location ∧ place.index? = some i ∧ index ≤ i := by
  obtain ⟨i, item, -, h⟩ := mem_nodesProblems_iff.1 h
  obtain ⟨place, hl, hi⟩ := place_of_mem_nodeProblems h
  exact ⟨place, index + i, hl, hi, Nat.le_add_right _ _⟩

theorem place_of_mem_nodeListProblems (h : p ∈ nodeListProblems Place.nodes.location member) :
    ∃ place : Place, p.location = place.location ∧ place.rank < [4] := by
  cases member with
  | none => exact ⟨.nodes, (mem_found_iff.1 h).1, by decide⟩
  | some t =>
    cases t with
    | arr items =>
      obtain ⟨place, i, hl, hi, -⟩ := place_of_mem_nodesProblems h
      obtain ⟨k, hk⟩ := Place.rank_of_index hi
      exact ⟨place, hl, by rw [hk]; simp [List.cons_lt_cons_iff]⟩
    | null | bool | num | str | obj => exact ⟨.nodes, (mem_found_iff.1 h).1, by decide⟩

theorem place_of_mem_graphProblems {graph : Json} (h : p ∈ graphProblems Place.graph.location graph) :
    ∃ place : Place, p.location = place.location ∧ place.rank < [5] := by
  cases graph with
  | obj members =>
    rcases List.mem_append.1 h with h | h
    · obtain ⟨place, hl, hr⟩ := place_of_mem_nodeListProblems h
      exact ⟨place, hl, List.lt_trans hr (by decide)⟩
    · exact ⟨.edges, (mem_found_iff.1 h).1, by decide⟩
  | null | bool | num | str | arr => exact ⟨.graph, (mem_found_iff.1 h).1, by decide⟩

theorem pairwise_nodeProblems (i : Nat) (item : Json) :
    (nodeProblems (Place.node i).location item).Pairwise Problem.Before := by
  cases item with
  | obj members =>
    refine List.pairwise_append.2 ⟨List.pairwise_append.2 ⟨pairwise_found, pairwise_found, ?_⟩,
      pairwise_found, ?_⟩
    · intro p hp q hq
      have hid : p.location = (Place.id i).location := (mem_found_iff.1 hp).1
      have htype : q.location = (Place.type i).location := (mem_found_iff.1 hq).1
      exact before_of_location hid htype (by simp [Place.rank, List.cons_lt_cons_iff])
    · intro p hp q hq
      have hdata : q.location = (Place.data i).location := (mem_found_iff.1 hq).1
      rcases List.mem_append.1 hp with hp | hp
      · have hid : p.location = (Place.id i).location := (mem_found_iff.1 hp).1
        exact before_of_location hid hdata (by simp [Place.rank, List.cons_lt_cons_iff])
      · have htype : p.location = (Place.type i).location := (mem_found_iff.1 hp).1
        exact before_of_location htype hdata (by simp [Place.rank, List.cons_lt_cons_iff])
  | null | bool | num | str | arr => exact pairwise_found

theorem pairwise_nodesProblems (index : Nat) (items : List Json) :
    (nodesProblems Place.nodes.location index items).Pairwise Problem.Before := by
  induction items generalizing index with
  | nil => exact .nil
  | cons item items ih =>
    refine List.pairwise_append.2 ⟨pairwise_nodeProblems index item, ih (index + 1), ?_⟩
    intro p hp q hq
    obtain ⟨place, hl, hi⟩ := place_of_mem_nodeProblems hp
    obtain ⟨place', i', hl', hi', hle⟩ := place_of_mem_nodesProblems hq
    obtain ⟨k, hk⟩ := Place.rank_of_index hi
    obtain ⟨k', hk'⟩ := Place.rank_of_index hi'
    have hlt : index < i' := by omega
    exact before_of_location hl hl' (by rw [hk, hk']; simp [List.cons_lt_cons_iff, hlt])

theorem pairwise_nodeListProblems (member : Option Json) :
    (nodeListProblems Place.nodes.location member).Pairwise Problem.Before := by
  cases member with
  | none => exact pairwise_found
  | some t =>
    cases t with
    | arr items => exact pairwise_nodesProblems 0 items
    | null | bool | num | str | obj => exact pairwise_found

theorem pairwise_graphProblems (graph : Json) :
    (graphProblems Place.graph.location graph).Pairwise Problem.Before := by
  cases graph with
  | obj members =>
    refine List.pairwise_append.2 ⟨pairwise_nodeListProblems _, pairwise_found, ?_⟩
    intro p hp q hq
    obtain ⟨place, hl, hr⟩ := place_of_mem_nodeListProblems hp
    have hedges : q.location = Place.edges.location := (mem_found_iff.1 hq).1
    exact before_of_location hl hedges hr
  | null | bool | num | str | arr => exact pairwise_found

theorem pairwise_documentProblems (t : Json) : (documentProblems t).Pairwise Problem.Before := by
  cases t with
  | obj members =>
    refine List.pairwise_append.2 ⟨?_, pairwise_found, ?_⟩
    · cases Dict.get? members "react_flow" with
      | none => exact pairwise_found
      | some graph => exact pairwise_graphProblems graph
    · intro p hp q hq
      have htable : q.location = Place.table.location := (mem_found_iff.1 hq).1
      cases hm : Dict.get? members "react_flow" with
      | none =>
        rw [hm] at hp
        have hgraph : p.location = Place.graph.location := (mem_found_iff.1 hp).1
        exact before_of_location hgraph htable (by decide)
      | some graph =>
        rw [hm] at hp
        obtain ⟨place, hl, hr⟩ := place_of_mem_graphProblems hp
        exact before_of_location hl htable hr
  | null | bool | num | str | arr => exact pairwise_found

/-! ## The report -/

theorem Problem.Before.path_ne {p q : Problem} (h : p.Before q) : p.path ≠ q.path := by
  obtain ⟨place, place', hp, hq, hlt⟩ := h
  intro he
  have hplaces : place = place' := Place.path_injective (by rw [← hp, he, hq])
  subst hplaces
  exact List.lt_irrefl _ hlt

theorem nodup_paths (t : Json) : ((documentProblems t).map Problem.path).Nodup :=
  List.pairwise_map.2 ((pairwise_documentProblems t).imp fun h => h.path_ne)

/-- Where a problem of a document is, its path tells. -/
theorem isProblem_iff_of_path (hp : p.path = place.path) :
    IsProblem t p ↔
      p.location = place.location ∧ ∃ member, Stands t place member ∧ Wrong place member p.violation := by
  constructor
  · rintro ⟨place', member, hs, hw, hl⟩
    have hplaces : place' = place := by
      apply Place.path_injective
      rw [← hp, Problem.path, hl, Place.text_location]
    subst hplaces
    exact ⟨hl, member, hs, hw⟩
  · rintro ⟨hl, member, hs, hw⟩
    exact ⟨place, member, hs, hw, hl⟩

theorem isProblem_congr {t' item : Json} (h : Stands t (.node i) (some item))
    (h' : Stands t' (.node i) (some item)) (hi : place.index? = some i) (hp : p.path = place.path) :
    IsProblem t p ↔ IsProblem t' p := by
  rw [isProblem_iff_of_path hp, isProblem_iff_of_path hp]
  refine and_congr_right fun _ => exists_congr fun member => and_congr_left fun _ => ?_
  exact ⟨h.of_node h' hi, h'.of_node h hi⟩

/-- The line of a message that a problem gets: its path and the reason, and
only the reason if the document itself is wrong. -/
def Problem.line (p : Problem) : String :=
  if p.path = "$" then p.violation.message else p.path ++ ": " ++ p.violation.message

theorem IsProblem.message_eq (h : IsProblem t p) : p.message = p.line := by
  obtain ⟨place, member, -, -, hl⟩ := h
  have hp : p.path = place.path := by rw [Problem.path, hl, Place.text_location]
  have hroot : p.path = "$" ↔ p.location = [] := by
    rw [hp, hl]
    constructor
    · intro hd
      have hplace : place = .document := Place.path_injective hd
      rw [hplace]
      rfl
    · intro hd
      have hplace : place = .document := Place.location_injective hd
      rw [hplace]
      rfl
  simp only [Problem.message, Problem.line, hroot]
  rfl

theorem Violation.newline_not_mem (violation : Violation) : '\n' ∉ violation.message.toList := by
  cases violation <;> decide

theorem IsProblem.newline_not_mem (h : IsProblem t p) : '\n' ∉ p.line.toList := by
  obtain ⟨place, member, -, -, hl⟩ := h
  have hp : p.path = place.path := by rw [Problem.path, hl, Place.text_location]
  have hcolon : '\n' ∉ ": ".toList := by decide
  rw [Problem.line]
  split
  · exact p.violation.newline_not_mem
  · rw [hp, String.toList_append, String.toList_append, List.mem_append, List.mem_append]
    rintro ((h | h) | h)
    · exact place.newline_not_mem h
    · exact hcolon h
    · exact p.violation.newline_not_mem h

/-- The lines of a message are those of its problems. -/
theorem splitAt_message (hne : documentProblems t ≠ []) :
    Text.splitAt '\n' (Experiment.Fault.misshapen (documentProblems t)).message =
      (documentProblems t).map Problem.line := by
  have hmessages : (documentProblems t).map Problem.message = (documentProblems t).map Problem.line :=
    List.map_congr_left fun p hp => (mem_documentProblems_iff.1 hp).message_eq
  have hlines : ∀ cs ∈ ((documentProblems t).map Problem.line).map String.toList, '\n' ∉ cs := by
    intro cs hcs
    obtain ⟨line, hline, rfl⟩ := List.mem_map.1 hcs
    obtain ⟨p, hp, rfl⟩ := List.mem_map.1 hline
    exact (mem_documentProblems_iff.1 hp).newline_not_mem
  have hnewline : "\n".toList = ['\n'] := rfl
  rw [Experiment.Fault.message, hmessages, Text.splitAt, String.toList_intercalate, hnewline,
    List.splitOn_intercalate _ hlines (by simpa using hne), List.map_map]
  simp [Function.comp_def]

/-- What the problems of a document say about it. -/
structure Reports (t : Json) (problems : List Problem) : Prop where
  /-- Nothing is reported but what is wrong with something at its place. -/
  sound : ∀ p ∈ problems, ∃ place member,
    Stands t place member ∧ Wrong place member p.violation ∧ p.path = place.path
  complete : ∀ place member violation, Stands t place member → Wrong place member violation →
    ∃ p ∈ problems, p.path = place.path ∧ p.violation = violation
  /-- Whatever stands at a place is reported once if it is wrong, and else not. -/
  once : ∀ place member, Stands t place member →
    ((problems.map Problem.path).count place.path = 1 ↔ ∃ violation, Wrong place member violation)
  nodup : (problems.map Problem.path).Nodup
  ordered : problems.Pairwise Problem.Before
  /-- The problems of a node are the same in all documents that have it there. -/
  apart : ∀ t' i item, Stands t (.node i) (some item) → Stands t' (.node i) (some item) →
    ∀ (place : Place) p, place.index? = some i → p.path = place.path → (p ∈ problems ↔ p ∈ documentProblems t')
  accepted : (∃ e, Experiment.ofDocument t = .ok e) ↔ problems = []
  lines : ∀ fault, Experiment.ofDocument t = .error fault →
    Text.splitAt '\n' fault.message = problems.map Problem.line

theorem count_paths_eq_one_iff (hs : Stands t place member) :
    ((documentProblems t).map Problem.path).count place.path = 1 ↔
      ∃ violation, Wrong place member violation := by
  constructor
  · intro h
    have hmem : place.path ∈ (documentProblems t).map Problem.path :=
      List.count_pos_iff.1 (by rw [h]; exact Nat.one_pos)
    obtain ⟨p, hp, hpath⟩ := List.mem_map.1 hmem
    obtain ⟨-, member', hs', hw⟩ := (isProblem_iff_of_path hpath).1 (mem_documentProblems_iff.1 hp)
    exact ⟨p.violation, hs.unique hs' ▸ hw⟩
  · rintro ⟨violation, hw⟩
    have hmem : Location.text place.location ∈ (documentProblems t).map Problem.path :=
      List.mem_map_of_mem (f := Problem.path) (hs.reportedFrom_subset hw.mem_reportedFrom)
    rw [← place.text_location]
    exact List.count_eq_one_of_mem (nodup_paths t) hmem

/-- **A document is reported for all that is wrong with it**, each place once
and in order, and for nothing else. -/
theorem reports_documentProblems (t : Json) : Reports t (documentProblems t) := by
  obtain ⟨haccepts, -, hrefuses⟩ := reads_experiment
  refine ⟨?_, ?_, fun _ _ => count_paths_eq_one_iff, nodup_paths t, pairwise_documentProblems t, ?_, ?_, ?_⟩
  · intro p hp
    obtain ⟨place, member, hs, hw, hl⟩ := mem_documentProblems_iff.1 hp
    exact ⟨place, member, hs, hw, by rw [Problem.path, hl, Place.text_location]⟩
  · intro place member violation hs hw
    exact ⟨_, hs.reportedFrom_subset hw.mem_reportedFrom, place.text_location, rfl⟩
  · intro t' i item h h' place p hi hp
    rw [mem_documentProblems_iff, mem_documentProblems_iff]
    exact isProblem_congr h h' hi hp
  · rw [haccepts, documentProblems_eq_nil_iff]
  · intro fault hfault
    obtain ⟨problem, rest, hp, rfl⟩ := hrefuses t fault hfault
    rw [← hp]
    exact splitAt_message (by rw [hp]; exact List.cons_ne_nil _ _)

example :
    (documentProblems (.obj [("component_props", .num (.int 5)), ("react_flow", .obj [("edges", .null),
      ("nodes", .arr [.obj [("id", .str "")], .str "b"])])])).map Problem.line =
      ["$.react_flow.nodes[0].id: must be non-empty", "$.react_flow.nodes[0].type: missing",
        "$.react_flow.nodes[1]: node must be an object", "$.component_props: must be an object"] := by
  decide +kernel

end Shape

end FlowScript
