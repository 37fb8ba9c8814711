/-
The two targets agree. The properties of a node are read before anything is
written, so which faults they have is the same for both (`FaultsAlike`), and a
template that comes with the library asks for nothing but values that its kind
has found. So a node becomes alike on both targets (`alike_outcome`), and the
reports differ in what they found only by the names that one target reserves
(`agree_upTo`).
-/
import FlowScript.Proofs.Failures
import FlowScript.Proofs.Source

namespace FlowScript

open Component

variable {target target' : Target}

/-! ## Faults of properties -/

/-- Values that are missing for the same faults, whatever the target is. -/
def FaultsAlike (values : Filling) : Prop :=
  ∀ {node p target fault}, values node p target = .error fault →
    ∀ target', values node p target' = .error fault

theorem faultsAlike_textValues : FaultsAlike textValues := by
  intro node p target fault h target'
  simpa only [textValues, bind_eq_error_iff, pure, Except.pure, reduceCtorEq] using h

theorem sizeLiteral_eq_error_iff {size : Option Json} {fault : PropertyFault} :
    sizeLiteral target size = .error fault ↔ ∃ t, size = some t ∧ sizePair t = .error fault := by
  cases size with
  | none => simp [sizeLiteral]
  | some t => simp [sizeLiteral, bind_eq_error_iff, pure, Except.pure]

theorem faultsAlike_imageValues : FaultsAlike imageValues := by
  intro node p target fault h target'
  simpa [imageValues, bind_eq_error_iff, sizeLiteral_eq_error_iff, pure, Except.pure] using h

theorem faultsAlike_keyboardValues : FaultsAlike keyboardValues := by
  intro node p target fault h target'
  simpa [keyboardValues, bind_eq_error_iff, pure, Except.pure] using h

theorem faultsAlike_gpioValues : FaultsAlike gpioValues := by
  intro node p target fault h target'
  simpa [gpioValues, bind_eq_error_iff, pure, Except.pure] using h

theorem faultsAlike_filled : ∀ p ∈ filled, FaultsAlike p.2 :=
  forall_mem_filled (P := fun values _ => FaultsAlike values) faultsAlike_textValues
    faultsAlike_imageValues faultsAlike_keyboardValues faultsAlike_gpioValues

/-! ## Nodes -/

/-- With a template that comes with the library, only a property can keep a
kind from rendering a node. -/
theorem fillTemplate_eq_error_iff {b : Builtin} (hb : b ∈ builtins) {values : Filling}
    (hv : Finds values b.keys) {node : Node.Resolved} (hid : Identifier.isIdentifier node.label = true)
    (entry : Dict Json) {cause : NodeFault} :
    fillTemplate b.type values node entry (.embedded target) = .error cause ↔
      ∃ fault, values node { entry, data := node.data } target = .error fault ∧
        cause = .property fault := by
  obtain ⟨template, ht, -⟩ := embedded_component target hb
  have htarget : (Template.Collection.embedded target).target = target := rfl
  cases hvalues : values node { entry, data := node.data } target with
  | error fault => simp [fillTemplate, htarget, ht, hvalues, eq_comm]
  | ok context =>
    obtain ⟨code, hcode⟩ : ∃ code : String,
        code.toList = Template.spelled context.values (componentPieces target b.type) ++ ['\n'] :=
      ⟨String.ofList _, String.toList_ofList⟩
    rw [(fillTemplate_eq_ok_iff hb hv hid entry).2 ⟨context, hvalues, hcode⟩]
    simp

/-- A fault of the node itself, and not of a template. -/
def Component.NodeFault.IsOwn : NodeFault → Prop
  | .oddEntry _ => True
  | .property _ => True
  | .noTemplate _ => False
  | .unfilled _ => False

/-- A kind that cannot render a node for one target can for no other. -/
theorem render_error_alike {type : String} {kind : Kind} (hk : builtin.get? type = some kind)
    {node : Node.Resolved} (hid : Identifier.isIdentifier node.label = true) {entry : Dict Json}
    {cause : NodeFault} (hr : kind.render node entry (.embedded target) = .error cause)
    (target' : Target) : cause.IsOwn ∧ kind.render node entry (.embedded target') = .error cause := by
  obtain ⟨p, hp, -, -, hrender⟩ := get?_builtin_filled hk
  have hb := mem_builtins_of_mem_filled hp
  have hv := finds_filled p hp
  rw [hrender] at hr ⊢
  obtain ⟨fault, hfault, rfl⟩ := (fillTemplate_eq_error_iff hb hv hid entry).1 hr
  have hfault' := faultsAlike_filled p hp hfault target'
  exact ⟨trivial, (fillTemplate_eq_error_iff hb hv hid entry).2 ⟨fault, hfault', rfl⟩⟩

theorem render_ok_alike {type : String} {kind : Kind} (hk : builtin.get? type = some kind)
    {node : Node.Resolved} (hid : Identifier.isIdentifier node.label = true) {entry : Dict Json}
    {code : String} (hr : kind.render node entry (.embedded target) = .ok code) (target' : Target) :
    ∃ code', kind.render node entry (.embedded target') = .ok code' := by
  cases hr' : kind.render node entry (.embedded target') with
  | ok code' => exact ⟨code', rfl⟩
  | error cause => rw [(render_error_alike hk hid hr' target).2] at hr; cases hr

/-- Whether it is found that a name is not free in the target. -/
def Finding.What.isReserved : Finding.What → Bool
  | .reserved _ => true
  | _ => false

def Finding.isReserved (f : Finding) : Bool := f.what.isReserved

/-- The findings that are not about names that the target reserves. -/
def Report.unreserved (r : Report) : List Finding := r.findings.filter (!·.isReserved)

namespace Compiler

/-- What becomes of a node on two targets, if only the code is different. -/
inductive Alike : Outcome → Outcome → Prop
  | unknownType : Alike .unknownType .unknownType
  | failed {cause} (h : cause.IsOwn) : Alike (.failed cause) (.failed cause)
  | emitted {code code' names} : Alike (.emitted code names) (.emitted code' names)

variable {maxNodes : Nat} {table : Dict Json}

/-- A node becomes alike on all targets. -/
theorem alike_outcome (target target' : Target) (maxNodes : Nat) (table : Dict Json) (node : Node) :
    Alike ((upTo target maxNodes).outcome table node) ((upTo target' maxNodes).outcome table node) := by
  have hb := becomes_outcome (upTo target maxNodes) table node
  generalize (upTo target maxNodes).outcome table node = outcome at hb
  cases hb with
  | unknownType hk =>
    have hb' : Becomes (upTo target' maxNodes) table node _ := .unknownType hk
    rw [hb'.outcome_eq]
    exact .unknownType
  | oddEntry hk he hodd =>
    have hb' : Becomes (upTo target' maxNodes) table node _ := .oddEntry hk he hodd
    rw [hb'.outcome_eq]
    exact .failed trivial
  | failed hk he hr =>
    obtain ⟨hown, hr'⟩ := render_error_alike hk node.isIdentifier_resolved hr target'
    have hb' : Becomes (upTo target' maxNodes) table node _ := .failed hk he hr'
    rw [hb'.outcome_eq]
    exact .failed hown
  | emitted hk he hr =>
    obtain ⟨code', hr'⟩ := render_ok_alike hk node.isIdentifier_resolved hr target'
    have hb' : Becomes (upTo target' maxNodes) table node _ := .emitted hk he hr'
    rw [hb'.outcome_eq]
    exact .emitted

theorem Alike.isEmitted_eq {outcome outcome' : Outcome} (h : Alike outcome outcome') :
    outcome.isEmitted = outcome'.isEmitted := by
  cases h <;> rfl

theorem Alike.names_eq {outcome outcome' : Outcome} (h : Alike outcome outcome') :
    outcome.names = outcome'.names := by
  cases h <;> rfl

/-! ## Findings -/

/-- What is found about a name, that it is reserved aside, is whether it is bound before. -/
theorem filter_nameFindings (target : Target) (bound : Bindings) (name : String) :
    (nameFindings target bound name).filter (!·.isReserved) =
      ((bound.lookup name).map (Finding.What.collision name)).toList := by
  have hcollision : ((bound.lookup name).map (Finding.What.collision name)).toList.filter
      (!·.isReserved) = ((bound.lookup name).map (Finding.What.collision name)).toList := by
    cases bound.lookup name <;> rfl
  rw [nameFindings, List.filter_append, hcollision]
  cases target.isReserved name <;> rfl

theorem Alike.filter_outcomeFindings {outcome outcome' : Outcome} (h : Alike outcome outcome')
    (target target' : Target) (bound : Bindings) :
    (outcomeFindings target bound outcome).filter (!·.isReserved) =
      (outcomeFindings target' bound outcome').filter (!·.isReserved) := by
  cases h with
  | unknownType => rfl
  | failed h => rfl
  | emitted => simp only [outcomeFindings, List.filter_flatMap, filter_nameFindings]

/-- After the same names, the same is found about nodes on all targets, the
names that a target reserves aside. -/
theorem filter_findings (target target' : Target) (maxNodes : Nat) (table : Dict Json)
    (bound : Bindings) (nodes : List Node) :
    (findings target bound ((upTo target maxNodes).outcomes table nodes)).filter (!·.isReserved) =
      (findings target' bound ((upTo target' maxNodes).outcomes table nodes)).filter (!·.isReserved) := by
  -- A node binds the same names on all targets, so the next one comes after the same names.
  induction nodes generalizing bound with
  | nil => rfl
  | cons node nodes ih =>
    have halike := alike_outcome target target' maxNodes table node
    have hnode := halike.filter_outcomeFindings target target' bound
    have hrest := ih (bound ++ ((upTo target maxNodes).outcome table node).names.map (·, node.id))
    simp only [outcomes, List.map_cons, findings, List.filter_append, List.filter_map] at hrest ⊢
    rw [← halike.names_eq, hrest]
    exact congrArg (fun found => List.map _ found ++ _) hnode

variable {name : String} {e : Experiment} {report : Report}

theorem isOwn_of_mem_findings (h : (upTo target maxNodes).compile name e = .ok report) {f : Finding}
    (hf : f ∈ report.findings) {cause : NodeFault} (hcause : f.what = .failed cause) : cause.IsOwn := by
  have homits : f.omits = true := by rw [Finding.omits, hcause]
  have hmem : f ∈ report.omissions := List.mem_filter.2 ⟨hf, homits⟩
  rw [omissions_eq_omissions h] at hmem
  obtain ⟨node, -, hshare⟩ := List.mem_filterMap.1 hmem
  have halike := alike_outcome target target maxNodes e.properties node
  rw [share_get?] at hshare
  cases ho : (upTo target maxNodes).outcome e.properties node with
  | unknownType => rw [ho] at hshare; cases hshare; cases hcause
  | emitted code names => rw [ho] at hshare; cases hshare
  | failed cause' =>
    rw [ho] at hshare halike
    cases hshare
    cases hcause
    cases halike with
    | failed hown => exact hown

theorem emitted_upTo (target target' : Target) (maxNodes : Nat) (table : Dict Json) (nodes : List Node) :
    (upTo target maxNodes).emitted table nodes = (upTo target' maxNodes).emitted table nodes :=
  List.filter_congr fun node _ => (alike_outcome target target' maxNodes table node).isEmitted_eq

/-- Reports that differ only in what their targets make different: the code,
and the names that are reserved. -/
structure Agree (desktop browser : Report) : Prop where
  nodeIds : desktop.fragments.map (·.nodeId) = browser.fragments.map (·.nodeId)
  findings : desktop.unreserved = browser.unreserved
  /-- No node is left out for want of a template or of a value for one. -/
  isOwn : ∀ f ∈ desktop.findings ++ browser.findings, ∀ cause, f.what = .failed cause → cause.IsOwn

/-- **The targets agree**: an experiment has too many nodes for both or is
compiled for both, and then the reports agree. -/
theorem agree_upTo (maxNodes : Nat) (name : String) (e : Experiment) :
    (maxNodes < e.graph.nodes.length ∧
      ∀ target, (upTo target maxNodes).compile name e =
        .error (.tooManyNodes e.graph.nodes.length maxNodes)) ∨
    (e.graph.nodes.length ≤ maxNodes ∧
      ∃ desktop browser, (upTo .desktop maxNodes).compile name e = .ok desktop ∧
        (upTo .browser maxNodes).compile name e = .ok browser ∧ Agree desktop browser) := by
  by_cases hn : maxNodes < e.graph.nodes.length
  · refine .inl ⟨hn, fun target => ?_⟩
    obtain ⟨template, ha, -⟩ := embedded_frame target
    exact compileGraph_eq_error_iff.2 (.tooManyNodes ha hn)
  · have hle := Nat.not_lt.1 hn
    obtain ⟨desktop, hd⟩ : ∃ desktop, (upTo .desktop maxNodes).compile name e = .ok desktop :=
      compileGraph_upTo name e.properties hle
    obtain ⟨browser, hb⟩ : ∃ browser, (upTo .browser maxNodes).compile name e = .ok browser :=
      compileGraph_upTo name e.properties hle
    refine .inr ⟨hle, desktop, browser, hd, hb, ?_, ?_, ?_⟩
    · rw [nodeIds_fragments hd, nodeIds_fragments hb, emitted_upTo .desktop .browser]
    · rw [Report.unreserved, Report.unreserved, findings_of_compileGraph hd, findings_of_compileGraph hb]
      exact filter_findings ..
    · intro f hf cause hcause
      rcases List.mem_append.1 hf with hf | hf
      · exact isOwn_of_mem_findings hd hf hcause
      · exact isOwn_of_mem_findings hb hf hcause

end Compiler

end FlowScript
