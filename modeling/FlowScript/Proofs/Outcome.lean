/-
What becomes of a node, as rules: by the kind that is registered for its
type, by its entry in the table of properties, and by what the kind renders.
`becomes_iff` says that the compiler follows these rules, and
`compileGraph_eq_ok_iff` what a compilation that succeeds puts in its report.
-/
import FlowScript.Program.Compiler

namespace FlowScript

/-- An entry of the table of properties that a node can be compiled with:
none at all, null or an object. -/
def Node.PlainEntry : Option Json → Prop
  | none => True
  | some entry => entry.kind = .null ∨ entry.kind = .object

theorem Node.oddEntry?_eq_none_iff {id : String} {table : Dict Json} :
    oddEntry? id table = none ↔ PlainEntry (table.get? id) := by
  unfold oddEntry?
  rcases table.get? id with _ | entry
  · simp [PlainEntry]
  · cases entry <;> simp [PlainEntry, Json.Tree.kind]

theorem Node.oddEntry?_eq_some_iff {id : String} {table : Dict Json} {found : Json.Kind} :
    oddEntry? id table = some found ↔
      ∃ entry, table.get? id = some entry ∧ ¬ PlainEntry (some entry) ∧ entry.kind = found := by
  unfold oddEntry?
  rcases table.get? id with _ | entry
  · simp
  · cases entry <;> simp [PlainEntry, Json.Tree.kind]

namespace Compiler

variable {c : Compiler} {table : Dict Json} {node : Node}

/-- What becomes of a node. -/
inductive Becomes (c : Compiler) (table : Dict Json) (node : Node) : Outcome → Prop
  | unknownType (hk : c.palette.get? node.type = none) : Becomes c table node .unknownType
  /-- The entry is there, and is neither null nor an object. -/
  | oddEntry {kind entry} (hk : c.palette.get? node.type = some kind)
      (he : table.get? node.id = some entry) (hodd : ¬ Node.PlainEntry (some entry)) :
      Becomes c table node (.failed (.oddEntry entry.kind))
  | failed {kind cause} (hk : c.palette.get? node.type = some kind)
      (he : Node.PlainEntry (table.get? node.id))
      (hr : kind.render node.resolved (Node.properties node.id table) c.templates = .error cause) :
      Becomes c table node (.failed cause)
  | emitted {kind code} (hk : c.palette.get? node.type = some kind)
      (he : Node.PlainEntry (table.get? node.id))
      (hr : kind.render node.resolved (Node.properties node.id table) c.templates = .ok code) :
      Becomes c table node (.emitted code (kind.boundNames node.resolved.label))

theorem becomes_outcome (c : Compiler) (table : Dict Json) (node : Node) :
    Becomes c table node (c.outcome table node) := by
  simp only [outcome]
  split
  next hk => exact .unknownType hk
  next kind hk =>
    split
    next found hf =>
      obtain ⟨entry, he, hodd, rfl⟩ := Node.oddEntry?_eq_some_iff.1 hf
      exact .oddEntry hk he hodd
    next hf =>
      have he := Node.oddEntry?_eq_none_iff.1 hf
      simp only [Node.resolve]
      split
      next cause hr => exact .failed hk he hr
      next code hr => exact .emitted hk he hr

theorem Becomes.outcome_eq {outcome : Outcome} (h : Becomes c table node outcome) :
    c.outcome table node = outcome := by
  cases h with
  | unknownType hk => simp [Compiler.outcome, hk]
  | oddEntry hk he hodd =>
    have hf := Node.oddEntry?_eq_some_iff.2 ⟨_, he, hodd, rfl⟩
    simp [Compiler.outcome, hk, hf]
  | failed hk he hr =>
    have hf := Node.oddEntry?_eq_none_iff.2 he
    simp [Compiler.outcome, hk, hf, Node.resolve, hr]
  | emitted hk he hr =>
    have hf := Node.oddEntry?_eq_none_iff.2 he
    simp [Compiler.outcome, hk, hf, Node.resolve, hr]

/-- The rules hold of exactly one outcome, the one that the compiler computes. -/
theorem becomes_iff {outcome : Outcome} :
    Becomes c table node outcome ↔ c.outcome table node = outcome :=
  ⟨Becomes.outcome_eq, fun h => h ▸ becomes_outcome c table node⟩

/-- Whether a node becomes a piece of the program. -/
def Outcome.isEmitted : Outcome → Bool
  | .emitted _ _ => true
  | _ => false

def outcomes (c : Compiler) (table : Dict Json) (nodes : List Node) : List (Node × Outcome) :=
  nodes.map fun node => (node, c.outcome table node)

/-- When a compilation succeeds, and what its report then holds. -/
theorem compileGraph_eq_ok_iff {name : String} {graph : Graph} {report : Report} :
    c.compileGraph name graph table = .ok report ↔
      graph.nodes.length ≤ c.maxNodes ∧
        ∃ source,
          Program.assemble c.templates name ((c.outcomes table graph.nodes).filterMap fragment?) =
            .ok source ∧
          report =
            { name, target := c.target, source, fingerprint := .ofSource c.target source,
              findings := findings c.target [] (c.outcomes table graph.nodes),
              fragments := (c.outcomes table graph.nodes).filterMap fragment? } := by
  have hassembly : c.templates.assembly?.isNone = true →
      ∀ fragments source, Program.assemble c.templates name fragments ≠ .ok source := by
    intro hnone fragments source
    rw [Option.isNone_iff_eq_none] at hnone
    simp [Program.assemble, hnone]
  have houtcomes : (graph.nodes.map fun node => (node, c.outcome table node)) =
      c.outcomes table graph.nodes := rfl
  simp only [compileGraph, houtcomes]
  split
  next hnone => simp [hassembly hnone]
  next =>
    split
    next hlt => simp [Nat.not_le.2 hlt]
    next hlt =>
      rw [and_iff_right (Nat.not_lt.1 hlt)]
      split
      next e he => simp [he]
      next source hs =>
        simp only [hs, Except.ok.injEq, exists_eq_left']
        exact eq_comm

theorem fragments_of_compileGraph {name : String} {graph : Graph} {report : Report}
    (h : c.compileGraph name graph table = .ok report) :
    report.fragments = (c.outcomes table graph.nodes).filterMap fragment? := by
  obtain ⟨-, source, -, rfl⟩ := compileGraph_eq_ok_iff.1 h
  rfl

theorem findings_of_compileGraph {name : String} {graph : Graph} {report : Report}
    (h : c.compileGraph name graph table = .ok report) :
    report.findings = findings c.target [] (c.outcomes table graph.nodes) := by
  obtain ⟨-, source, -, rfl⟩ := compileGraph_eq_ok_iff.1 h
  rfl

end Compiler

end FlowScript
