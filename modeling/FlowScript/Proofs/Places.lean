/-
The places of a document that are looked at (`Place`), what stands at them
(`Stands`) and what can be wrong with that (`Wrong`), described without the
walk that looks at them. Different places have different paths, also when the
paths are written out (`Place.path_injective`), because the steps of a path
begin with marks that no name has in it.
-/
import FlowScript.Experiment.Shape

namespace FlowScript

namespace Shape

/-! ## Places -/

/-- The places of a stored experiment that are looked at. -/
inductive Place where
  | document
  | graph
  | nodes
  | node (index : Nat)
  | id (index : Nat)
  | type (index : Nat)
  | data (index : Nat)
  | edges
  | table
deriving DecidableEq, Repr

namespace Place

/-- The node that a place belongs to. -/
def index? : Place → Option Nat
  | .node i | .id i | .type i | .data i => some i
  | .document | .graph | .nodes | .edges | .table => none

/-- The path to a node. -/
def nodePath (i : Nat) : String := "$.react_flow.nodes" ++ ("[" ++ toString i ++ "]")

/-- The path to a place, with a dollar sign for the document. -/
def path : Place → String
  | .document => "$"
  | .graph => "$.react_flow"
  | .nodes => "$.react_flow.nodes"
  | .node i => nodePath i
  | .id i => nodePath i ++ ".id"
  | .type i => nodePath i ++ ".type"
  | .data i => nodePath i ++ ".data"
  | .edges => "$.react_flow.edges"
  | .table => "$.component_props"

/-- The path to a place in steps. -/
def location : Place → Location
  | .document => []
  | .graph => [.field "react_flow"]
  | .nodes => [.field "react_flow", .field "nodes"]
  | .node i => [.field "react_flow", .field "nodes", .item i]
  | .id i => [.field "react_flow", .field "nodes", .item i, .field "id"]
  | .type i => [.field "react_flow", .field "nodes", .item i, .field "type"]
  | .data i => [.field "react_flow", .field "nodes", .item i, .field "data"]
  | .edges => [.field "react_flow", .field "edges"]
  | .table => [.field "component_props"]

/-- The rank of a place in the order of the document, compared number by
number: the nodes by index, in each the id, the type and the data, then the
edges and the table. -/
def rank : Place → List Nat
  | .document => [0]
  | .graph => [1]
  | .nodes => [2]
  | .node i => [3, i, 0]
  | .id i => [3, i, 1]
  | .type i => [3, i, 2]
  | .data i => [3, i, 3]
  | .edges => [4]
  | .table => [5]

end Place

/-- What stands at a place: `none` if it is missing there. Nothing stands at a
place, not even that, if what contains it is missing or broken itself. -/
inductive Stands (t : Json) : Place → Option Json → Prop
  | document : Stands t .document (some t)
  | graph (h : t.kind = .object) : Stands t .graph (t.member? "react_flow")
  | table (h : t.kind = .object) : Stands t .table (t.member? "component_props")
  | nodes {graph} (hg : Stands t .graph (some graph)) (h : graph.kind = .object) :
      Stands t .nodes (graph.member? "nodes")
  | edges {graph} (hg : Stands t .graph (some graph)) (h : graph.kind = .object) :
      Stands t .edges (graph.member? "edges")
  | node {items item i} (hn : Stands t .nodes (some (.arr items))) (h : items[i]? = some item) :
      Stands t (.node i) (some item)
  | id {item i} (hi : Stands t (.node i) (some item)) (h : item.kind = .object) :
      Stands t (.id i) (item.member? "id")
  | type {item i} (hi : Stands t (.node i) (some item)) (h : item.kind = .object) :
      Stands t (.type i) (item.member? "type")
  | data {item i} (hi : Stands t (.node i) (some item)) (h : item.kind = .object) :
      Stands t (.data i) (item.member? "data")

/-- What is wrong with what stands at a place. -/
inductive Wrong : Place → Option Json → Violation → Prop
  | document {t} (h : t.kind ≠ .object) : Wrong .document (some t) .documentNotObject
  | noGraph : Wrong .graph none .noGraph
  | graph {t} (h : t.kind ≠ .object) : Wrong .graph (some t) .graphNotObject
  | noNodes : Wrong .nodes none .noNodes
  | nodes {t} (h : t.kind ≠ .list) : Wrong .nodes (some t) .nodesNotList
  | node {t i} (h : t.kind ≠ .object) : Wrong (.node i) (some t) .nodeNotObject
  | noId {i} : Wrong (.id i) none .absent
  | emptyId {i} : Wrong (.id i) (some (.str "")) .empty
  | id {t i} (h : t.kind ≠ .text) : Wrong (.id i) (some t) .notText
  | noType {i} : Wrong (.type i) none .absent
  | type {t i} (h : t.kind ≠ .text) : Wrong (.type i) (some t) .notText
  | data {t i} (hn : t.kind ≠ .null) (h : t.kind ≠ .object) : Wrong (.data i) (some t) .dataNotObject
  | edges {t} (hn : t.kind ≠ .null) (h : t.kind ≠ .list) : Wrong .edges (some t) .edgesNotList
  | table {t} (hn : t.kind ≠ .null) (h : t.kind ≠ .object) : Wrong .table (some t) .tableNotObject

variable {t : Json} {place place' : Place} {member member' : Option Json} {violation : Violation}

/-- One thing at most stands at a place. -/
theorem Stands.unique (h : Stands t place member) (h' : Stands t place member') : member = member' := by
  induction h generalizing member' with
  | document => cases h'; rfl
  | graph => cases h'; rfl
  | table => cases h'; rfl
  | nodes hg _ ih =>
    cases h' with
    | nodes hg' _ => cases ih hg'; rfl
  | edges hg _ ih =>
    cases h' with
    | edges hg' _ => cases ih hg'; rfl
  | node hn hi ih =>
    cases h' with
    | node hn' hi' =>
      cases ih hn'
      rw [← hi, hi']
  | id hi _ ih =>
    cases h' with
    | id hi' _ => cases ih hi'; rfl
  | type hi _ ih =>
    cases h' with
    | type hi' _ => cases ih hi'; rfl
  | data hi _ ih =>
    cases h' with
    | data hi' _ => cases ih hi'; rfl

/-- What stands at a place of a node depends on the node alone. -/
theorem Stands.of_node {t' item : Json} {i : Nat} (h : Stands t (.node i) (some item))
    (h' : Stands t' (.node i) (some item)) (hi : place.index? = some i) (hs : Stands t place member) :
    Stands t' place member := by
  cases hs with
  | document | graph | table | nodes | edges => cases hi
  | node hn hx =>
    cases hi
    cases (Stands.node hn hx).unique h
    exact h'
  | id hn ho =>
    cases hi
    cases hn.unique h
    exact .id h' ho
  | type hn ho =>
    cases hi
    cases hn.unique h
    exact .type h' ho
  | data hn ho =>
    cases hi
    cases hn.unique h
    exact .data h' ho

/-! ## Paths -/

/-- What begins a step of a path that is written out. -/
def isMark (c : Char) : Bool := c == '.' || c == '['

/-- A step whose name, if it has one, has no mark in it. -/
def Step.IsPlain : Step → Prop
  | .field name => ∀ c ∈ name.toList, isMark c = false
  | .item _ => True

theorem isMark_of_isDigit {c : Char} (h : c.isDigit = true) : isMark c = false := by
  have hne : ∀ d : Char, d.isDigit = false → c ≠ d := by
    rintro d hd rfl
    rw [h] at hd
    cases hd
  simp only [isMark, Bool.or_eq_false_iff, beq_eq_false_iff_ne]
  exact ⟨hne _ (by decide), hne _ (by decide)⟩

/-- A step is written as a mark and what has none. -/
theorem Step.IsPlain.text_eq {step : Step} (h : step.IsPlain) :
    ∃ mark body, step.text.toList = mark :: body ∧ isMark mark = true ∧ ∀ c ∈ body, isMark c = false := by
  cases step with
  | field name => exact ⟨'.', name.toList, String.toList_append, rfl, h⟩
  | item i =>
    refine ⟨'[', (toString i).toList ++ [']'], by simp [text], rfl, ?_⟩
    intro c hc
    rcases List.mem_append.1 hc with hc | hc
    · rw [Nat.toString_eq_repr, Nat.toList_repr] at hc
      exact isMark_of_isDigit (Nat.isDigit_of_mem_toDigits (by decide) (by decide) hc)
    · cases List.mem_singleton.1 hc
      decide

theorem toString_injective {i j : Nat} (h : toString i = toString j) : i = j := by
  have hdigits : Nat.toDigits 10 i = Nat.toDigits 10 j := by
    rw [← Nat.toList_repr, ← Nat.toList_repr, ← Nat.toString_eq_repr, h, Nat.toString_eq_repr]
  calc
    i = Nat.ofDigitChars 10 (Nat.toDigits 10 i) 0 := Nat.ofDigitChars_ten_toDigits.symm
    _ = Nat.ofDigitChars 10 (Nat.toDigits 10 j) 0 := by rw [hdigits]
    _ = j := Nat.ofDigitChars_ten_toDigits

theorem Step.text_injective {step step' : Step} (h : step.text = step'.text) : step = step' := by
  cases step with
  | field name =>
    cases step' with
    | field name' => rw [(String.append_right_inj ".").1 h]
    | item i' =>
      have hfirst := congrArg (fun s : String => s.toList.head?) h
      simp [text] at hfirst
  | item i =>
    cases step' with
    | field name' =>
      have hfirst := congrArg (fun s : String => s.toList.head?) h
      simp [text] at hfirst
    | item i' =>
      have hindex := (String.append_right_inj "[").1 ((String.append_left_inj "]").1 h)
      rw [toString_injective hindex]

/-- What stands before a mark, and what from the mark on, can be told apart. -/
theorem append_inj_of_marks {body body' rest rest' : List Char}
    (hbody : ∀ c ∈ body, isMark c = false) (hbody' : ∀ c ∈ body', isMark c = false)
    (hrest : ∀ c ∈ rest.head?, isMark c = true) (hrest' : ∀ c ∈ rest'.head?, isMark c = true)
    (h : body ++ rest = body' ++ rest') : body = body' ∧ rest = rest' := by
  have hcut : ∀ {xs ys : List Char}, (∀ c ∈ xs, isMark c = false) → (∀ c ∈ ys.head?, isMark c = true) →
      (xs ++ ys).takeWhile (!isMark ·) = xs := by
    intro xs ys hxs hys
    have hnone : ys.takeWhile (!isMark ·) = [] := by
      cases ys with
      | nil => rfl
      | cons c ys => rw [List.takeWhile_cons_of_neg (by simp [hys c rfl])]
    rw [List.takeWhile_append_of_pos fun c hc => by simp [hxs c hc], hnone, List.append_nil]
  have hsame : body = body' := by rw [← hcut hbody hrest, h, hcut hbody' hrest']
  subst hsame
  exact ⟨rfl, List.append_cancel_left h⟩

/-- A path begins with a mark, if it has steps. -/
theorem head_steps {steps : List Step} (h : ∀ step ∈ steps, step.IsPlain) :
    ∀ c ∈ (steps.flatMap fun step => step.text.toList).head?, isMark c = true := by
  cases steps with
  | nil => exact nofun
  | cons step steps =>
    obtain ⟨mark, body, htext, hmark, -⟩ := (h step List.mem_cons_self).text_eq
    rw [List.flatMap_cons, htext]
    intro c hc
    cases hc
    exact hmark

theorem steps_injective {steps steps' : List Step} (hp : ∀ step ∈ steps, step.IsPlain)
    (hp' : ∀ step ∈ steps', step.IsPlain)
    (h : (steps.flatMap fun step => step.text.toList) = steps'.flatMap fun step => step.text.toList) :
    steps = steps' := by
  induction steps generalizing steps' with
  | nil =>
    cases steps' with
    | nil => rfl
    | cons step' steps' =>
      obtain ⟨mark, body, htext, -⟩ := (hp' step' List.mem_cons_self).text_eq
      rw [List.flatMap_cons, htext] at h
      cases h
  | cons step steps ih =>
    obtain ⟨hstep, hsteps⟩ := List.forall_mem_cons.1 hp
    obtain ⟨mark, body, htext, -, hbody⟩ := hstep.text_eq
    cases steps' with
    | nil =>
      rw [List.flatMap_cons, htext] at h
      cases h
    | cons step' steps' =>
      obtain ⟨hstep', hsteps'⟩ := List.forall_mem_cons.1 hp'
      obtain ⟨mark', body', htext', -, hbody'⟩ := hstep'.text_eq
      rw [List.flatMap_cons, List.flatMap_cons, htext, htext', List.cons_append, List.cons_append] at h
      obtain ⟨hmarks, h⟩ := List.cons.inj h
      obtain ⟨hbodies, hrest⟩ :=
        append_inj_of_marks hbody hbody' (head_steps hsteps) (head_steps hsteps') h
      have hsame : step.text = step'.text := String.toList_inj.1 (by rw [htext, htext', hmarks, hbodies])
      rw [Step.text_injective hsame, ih hsteps hsteps' hrest]

/-- Paths of plain steps are different texts if they are different. -/
theorem Location.text_injective {location location' : Location} (hp : ∀ step ∈ location, step.IsPlain)
    (hp' : ∀ step ∈ location', step.IsPlain) (h : Location.text location = Location.text location') :
    location = location' := by
  have hsteps := congrArg String.toList ((String.append_right_inj "$").1 h)
  rw [String.toList_join, String.toList_join, List.flatMap_map, List.flatMap_map] at hsteps
  exact steps_injective hp hp' hsteps

theorem Location.text_append (location location' : Location) :
    Location.text (location ++ location') =
      Location.text location ++ String.join (location'.map Step.text) := by
  rw [text, List.map_append, String.join_append, ← String.append_assoc]
  rfl

namespace Place

theorem text_location (place : Place) : Location.text place.location = place.path := by
  have hnode : ∀ i, Location.text (node i).location = nodePath i := by
    intro i
    have hnodes : Location.text nodes.location = "$.react_flow.nodes" := by decide
    change Location.text (nodes.location ++ [.item i]) = _
    rw [Location.text_append, hnodes, List.map_singleton, String.join_cons, String.join_nil,
      String.append_empty]
    rfl
  have hfield : ∀ i name, Location.text ((node i).location ++ [.field name]) =
      nodePath i ++ ("." ++ name) := by
    intro i name
    rw [Location.text_append, hnode, List.map_singleton, String.join_cons, String.join_nil,
      String.append_empty]
    rfl
  cases place with
  | node i => exact hnode i
  | id i => exact hfield i "id"
  | type i => exact hfield i "type"
  | data i => exact hfield i "data"
  | document | graph | nodes | edges | table => decide

theorem isPlain_location (place : Place) : ∀ step ∈ place.location, step.IsPlain := by
  cases place <;> simp [location, Step.IsPlain, isMark]

theorem location_injective {place place' : Place} (h : place.location = place'.location) :
    place = place' := by
  cases place <;> cases place' <;> simp_all [location]

/-- Different places have different paths. -/
theorem path_injective {place place' : Place} (h : place.path = place'.path) : place = place' := by
  rw [← text_location, ← text_location] at h
  exact location_injective (Location.text_injective (isPlain_location _) (isPlain_location _) h)

theorem newline_not_mem (place : Place) : '\n' ∉ place.path.toList := by
  have hnode : ∀ i, '\n' ∉ (nodePath i).toList := by
    intro i
    unfold nodePath
    rw [Nat.toString_eq_repr, String.toList_append, String.toList_append, String.toList_append,
      Nat.toList_repr, List.mem_append, List.mem_append, List.mem_append]
    rintro (h | (h | h) | h)
    · exact absurd h (by decide)
    · exact absurd h (by decide)
    · cases Nat.isDigit_of_mem_toDigits (by decide) (by decide) h
    · exact absurd h (by decide)
  have hfield : ∀ i (name : String), '\n' ∉ name.toList → '\n' ∉ (nodePath i ++ name).toList := by
    intro i name hname h
    rw [String.toList_append, List.mem_append] at h
    exact h.elim (hnode i) hname
  cases place with
  | node i => exact hnode i
  | id i | type i | data i => exact hfield i _ (by decide)
  | document | graph | nodes | edges | table => decide

theorem rank_of_index {place : Place} {i : Nat} (h : place.index? = some i) :
    ∃ k, place.rank = [3, i, k] := by
  cases place with
  | node _ | id _ | type _ | data _ => cases h; exact ⟨_, rfl⟩
  | document | graph | nodes | edges | table => cases h

end Place

end Shape

end FlowScript
