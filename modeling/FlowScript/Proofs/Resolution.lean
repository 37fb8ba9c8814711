/-
Labels made into identifiers, once and for all. Sanitizing takes every text to
an identifier and leaves identifiers alone, so doing it again changes nothing.
The same holds of nodes: a node that is given the data it was resolved to is
resolved to the same label and data, whatever its label was, and its label is
then also the one that is shown (`resolve_settles`).
-/
import FlowScript.Experiment.Resolved

namespace FlowScript

namespace Identifier

theorem sanitize_sanitize (s : String) : sanitize (sanitize s) = sanitize s :=
  sanitize_of_isIdentifier (isIdentifier_sanitize s)

end Identifier

namespace Node

variable (node : Node)

/-- The data of a resolved node are the node's, but for the label. -/
theorem get?_data_resolved (key : String) :
    node.resolved.data.get? key = if key = "label" then some (.str node.resolved.label) else node.data.get? key := by
  by_cases hkey : key = "label"
  · simp [hkey, resolved]
  · simp [hkey, resolved, Dict.get?_insert_of_ne]

variable {node} {again : Node}

/-- The label in the data of a resolved node is the one that is shown from then on. -/
theorem displayLabel_of_data (h : again.data = node.resolved.data) : again.displayLabel = node.resolved.label := by
  simp [displayLabel, label?, h, get?_data_resolved, Json.Tree.text?]

theorem label_of_data (h : again.data = node.resolved.data) : again.resolved.label = node.resolved.label := by
  have hlabel : again.resolved.label = Identifier.sanitize again.displayLabel := rfl
  rw [hlabel, displayLabel_of_data h]
  exact Identifier.sanitize_sanitize node.displayLabel

theorem data_of_data (h : again.data = node.resolved.data) : again.resolved.data = node.resolved.data := by
  have hdata : again.resolved.data = again.data.insert "label" (.str again.resolved.label) := rfl
  rw [hdata, label_of_data h, h]
  exact Dict.insert_insert node.data "label" (.str node.resolved.label)

/-- **Sanitizing is a retraction onto identifiers, and resolving is stable under it.**
What a node is resolved to has an identifier for its label, and the node's own
data but for that label. Any node with those data is resolved to the same
label and data, with that label to show; if it has the id of the first one, it
has its properties too. -/
theorem resolve_settles :
    (∀ s, Identifier.isIdentifier (Identifier.sanitize s) = true ∧
      (Identifier.sanitize s = s ↔ Identifier.isIdentifier s = true) ∧
      Identifier.sanitize (Identifier.sanitize s) = Identifier.sanitize s) ∧
    ∀ (node : Node) (table : Dict Json) (working : Resolved) (entry : Dict Json),
      node.resolve table = (working, entry) →
      Identifier.isIdentifier working.label = true ∧
      (∀ key, working.data.get? key = if key = "label" then some (.str working.label) else node.data.get? key) ∧
      ∀ again : Node, again.data = working.data →
        again.resolved.label = working.label ∧ again.resolved.data = working.data ∧
        again.resolved.displayLabel = working.label ∧ (again.id = node.id → (again.resolve table).2 = entry) := by
  constructor
  · intro s
    exact ⟨Identifier.isIdentifier_sanitize s, Identifier.sanitize_eq_self_iff s, Identifier.sanitize_sanitize s⟩
  · intro node table working entry hresolve
    obtain ⟨rfl, rfl⟩ := Prod.mk.inj hresolve
    refine ⟨Identifier.isIdentifier_sanitize node.displayLabel, get?_data_resolved node, fun again hdata => ?_⟩
    exact ⟨label_of_data hdata, data_of_data hdata, displayLabel_of_data hdata,
      fun hid => congrArg (properties · table) hid⟩

/-- A label of a digit, blanks and letters that are not ASCII. -/
def numbered : Node :=
  { id := "n-7", type := "text", data := [("label", .str "3. \u00e9t\u00e9 !"), ("text", .str "a")] }

/-- The node with the data that it is resolved to. -/
def settled : Node := { numbered with data := numbered.resolved.data }

/-- The label is resolved to an identifier, and from then on to itself. -/
theorem resolve_settles_numbered :
    numbered.resolved.label = "component_3t" ∧ numbered.displayLabel = "3. \u00e9t\u00e9 !" ∧
      settled.resolved.label = "component_3t" ∧ settled.resolved.displayLabel = "component_3t" ∧
      settled.resolved.data.get? "text" = some (.str "a") ∧
      (settled.resolve [("n-7", .obj [("x", .bool true)])]).2 = [("x", .bool true)] := by
  have hlabel : numbered.resolved.label = "component_3t" := by decide
  obtain ⟨-, hresolve⟩ := resolve_settles
  obtain ⟨-, hdata, hagain⟩ := hresolve numbered [("n-7", .obj [("x", .bool true)])] _ _ rfl
  obtain ⟨hsame, hkept, hshown, hentry⟩ := hagain settled rfl
  exact ⟨hlabel, rfl, hsame.trans hlabel, hshown.trans hlabel, hkept ▸ hdata "text", hentry rfl⟩

end Node

end FlowScript
