/-
Documents as reading leaves them. What is read from a text is `Settled`: its
numbers come from tokens and its objects are sorted, at every depth
(`settled_of_read`). So is everything in an experiment that is read, and
components look for properties in sorted tables only (`sorted_of_resolve`).
-/
import FlowScript.Experiment.Resolved
import FlowScript.Proofs.Stored

namespace FlowScript

namespace Json

/-- A document that reading can give: its numbers come from tokens, and its objects are sorted. -/
inductive Settled : Json → Prop
  | null : Settled .null
  | bool (b : Bool) : Settled (.bool b)
  | num {token : List Char} {n : Number} (h : Number.ofToken token = some n) : Settled (.num n)
  | str (s : String) : Settled (.str s)
  | arr {items : List Json} (h : ∀ t ∈ items, Settled t) : Settled (.arr items)
  | obj {members : Dict Json} (hsorted : members.Sorted) (h : ∀ p ∈ members, Settled p.2) : Settled (.obj members)

mutual

theorem settled_of_settle : ∀ {tree : Tree String} {t : Json}, settle tree = some t → Settled t
  | .null, t, h => by
    cases h
    exact .null
  | .bool b, t, h => by
    cases h
    exact .bool b
  | .str s, t, h => by
    cases h
    exact .str s
  | .num token, t, h => by
    rw [settle] at h
    obtain ⟨n, hn, rfl⟩ := Option.map_eq_some_iff.1 h
    exact .num hn
  | .arr items, t, h => by
    rw [settle] at h
    obtain ⟨ts, hts, rfl⟩ := Option.map_eq_some_iff.1 h
    exact .arr (settled_of_settleItems hts)
  | .obj members, t, h => by
    rw [settle] at h
    obtain ⟨ms, hms, rfl⟩ := Option.map_eq_some_iff.1 h
    -- Of the members that were read, those that are replaced by later ones are gone.
    exact .obj (Dict.sorted_ofList ms) fun p hp => settled_of_settleMembers hms p (Dict.mem_of_mem_ofList hp)

theorem settled_of_settleItems : ∀ {trees : List (Tree String)} {ts : List Json},
    settleItems trees = some ts → ∀ t ∈ ts, Settled t
  | [], ts, h => by
    cases h
    exact nofun
  | tree :: trees, ts, h => by
    simp only [settleItems, Option.bind_eq_bind, Option.bind_eq_some_iff, Option.some.injEq] at h
    obtain ⟨x, hx, xs, hxs, rfl⟩ := h
    exact List.forall_mem_cons.2 ⟨settled_of_settle hx, settled_of_settleItems hxs⟩

theorem settled_of_settleMembers : ∀ {trees : List (String × Tree String)} {ms : List (String × Json)},
    settleMembers trees = some ms → ∀ p ∈ ms, Settled p.2
  | [], ms, h => by
    cases h
    exact nofun
  | (k, tree) :: trees, ms, h => by
    simp only [settleMembers, Option.bind_eq_bind, Option.bind_eq_some_iff, Option.some.injEq] at h
    obtain ⟨x, hx, xs, hxs, rfl⟩ := h
    exact List.forall_mem_cons.2 ⟨settled_of_settle hx, settled_of_settleMembers hxs⟩

end

theorem settled_of_read {s : String} {t : Json} (h : Json.read s = some t) : Settled t := by
  obtain ⟨tree, -, htree⟩ := Option.bind_eq_some_iff.1 h
  exact settled_of_settle htree

namespace Settled

variable {t u : Json} {items : List Json} {members : Dict Json} {key : String}

theorem forall_mem (h : Settled (.arr items)) : ∀ t ∈ items, Settled t := by
  cases h with
  | arr h => exact h

theorem sorted (h : Settled (.obj members)) : members.Sorted := by
  cases h with
  | obj hsorted => exact hsorted

theorem get? (h : Settled (.obj members)) (hget : Dict.get? members key = some u) : Settled u := by
  cases h with
  | obj _ h => exact h _ (Dict.mem_of_get? hget)

theorem member? (h : Settled t) (hmember : t.member? key = some u) : Settled u := by
  cases t with
  | obj members => exact h.get? hmember
  | null | bool | num | str | arr => cases hmember

end Settled

end Json

/-! ## Experiments -/

/-- What an optional member holds is settled if the member is. -/
theorem Holds.settled {α : Type} {form : List α → Json} {member : Option Json} {items : List α}
    (h : Holds form member items) (hempty : (form []).Settled) (hmember : ∀ t, member = some t → t.Settled) :
    (form items).Settled := by
  cases h with
  | missing | null => exact hempty
  | given => exact hmember _ rfl

/-- An experiment with settled documents in it. -/
structure Experiment.Settled (e : Experiment) : Prop where
  data : ∀ node ∈ e.graph.nodes, Json.Settled (.obj node.data)
  edges : ∀ t ∈ e.graph.edges, t.Settled
  properties : Json.Settled (.obj e.properties)

theorem Node.Stored.settled {t : Json} {node : Node} (h : Stored t node) (ht : t.Settled) :
    Json.Settled (.obj node.data) :=
  h.data.settled (.obj Dict.sorted_nil nofun) fun _ hmember => ht.member? hmember

theorem Node.settled_of_forall₂ {items : List Json} {nodes : List Node} (h : List.Forall₂ Stored items nodes)
    (hitems : ∀ t ∈ items, t.Settled) : ∀ node ∈ nodes, Json.Settled (.obj node.data) := by
  induction h with
  | nil => exact nofun
  | cons hnode _ ih =>
    obtain ⟨hitem, hitems⟩ := List.forall_mem_cons.1 hitems
    exact List.forall_mem_cons.2 ⟨hnode.settled hitem, ih hitems⟩

namespace Experiment

variable {s : String} {t : Json} {e : Experiment}

theorem Stored.settled (h : Stored t e) (ht : t.Settled) : e.Settled := by
  obtain ⟨⟨graph, hgraph, ⟨items, hitems, hnodes⟩, hedges⟩, hproperties⟩ := h
  have hg := ht.member? hgraph
  refine ⟨Node.settled_of_forall₂ hnodes (hg.member? hitems).forall_mem, Json.Settled.forall_mem ?_, ?_⟩
  · exact hedges.settled (.arr nofun) fun _ hmember => hg.member? hmember
  · exact hproperties.settled (.obj Dict.sorted_nil nofun) fun _ hmember => ht.member? hmember

theorem settled_of_ofText (h : ofText s = .ok e) : e.Settled := by
  rw [ofText] at h
  split at h
  next t hread => exact ((reads_experiment.finds t e).1 h).2.settled (Json.settled_of_read hread)
  next => cases h

/-- The tables in which the properties of a node are looked for are sorted,
those that are empty for want of an entry included. -/
theorem sorted_of_resolve (h : ofText s = .ok e) {node : Node} (hnode : node ∈ e.graph.nodes) :
    (node.resolve e.properties).1.data.Sorted ∧ (node.resolve e.properties).2.Sorted := by
  have he := settled_of_ofText h
  refine ⟨(he.data node hnode).sorted.insert _ _, ?_⟩
  change (Node.properties node.id e.properties).Sorted
  rw [Node.properties]
  cases hentry : Dict.get? e.properties node.id with
  | none => exact Dict.sorted_nil
  | some entry =>
    cases entry with
    | obj members => exact (he.properties.get? hentry).sorted
    | null | bool | num | str | arr => exact Dict.sorted_nil

end Experiment

end FlowScript
