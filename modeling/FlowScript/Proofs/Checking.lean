/-
A check as a forecast. A check and a compilation read a document the same way,
so that what the one cannot read the other cannot either. Which nodes are of an
unknown type is asked twice: by the check, of the types alone, and by every
compilation, node by node and among all else that it finds. Both name the same
nodes in the same order, whatever the target, the templates and the limits are
(`foretells_check`).
-/
import Mathlib.Data.List.Forall2
import FlowScript.CommandLine.Run
import FlowScript.Proofs.Isolation
import FlowScript.Proofs.Results
import FlowScript.Proofs.Source
import FlowScript.Proofs.TemplateSets

namespace FlowScript

/-- Whether it is found that the type of a node is unknown. -/
def Finding.isUnknownType (f : Finding) : Bool := decide (f.what = .unknownType)

/-- What is found about nodes of unknown types. -/
def Report.unknowns (r : Report) : List Finding := r.findings.filter Finding.isUnknownType

/-- What is found about a node whose type is unknown. -/
def Node.unknownType (node : Node) : Finding := ⟨node.id, node.type, .unknownType⟩

namespace Compiler

variable {c : Compiler} {table : Dict Json} {name : String} {graph : Graph} {report : Report}

/-! ## Nodes of unknown types -/

/-- The nodes for whose type there is no kind of component. -/
def unknown (c : Compiler) (nodes : List Node) : List Node :=
  nodes.filter fun node => (c.palette.get? node.type).isNone

/-- Names are no reason to call a type unknown. -/
theorem isUnknownType_of_mem_nameFindings {target : Target} {bound : Bindings} {what : Finding.What}
    (h : what ∈ nameFindings target bound name) (id type : String) :
    Finding.isUnknownType ⟨id, type, what⟩ = false := by
  have homits := omits_nameFindings h id type
  cases what with
  | unknownType => cases homits
  | failed | collision | reserved => rfl

theorem filter_isUnknownType_outcomeFindings (c : Compiler) (table : Dict Json) (bound : Bindings) (node : Node) :
    ((outcomeFindings c.target bound (c.outcome table node)).map fun what =>
        Finding.mk node.id node.type what).filter Finding.isUnknownType =
      (c.unknown [node]).map Node.unknownType := by
  have hb := becomes_outcome c table node
  cases ho : c.outcome table node with
  | unknownType =>
    rw [ho] at hb
    cases hb with
    | unknownType hk => simp [unknown, hk, outcomeFindings, Node.unknownType, Finding.isUnknownType]
  | failed cause =>
    rw [ho] at hb
    cases hb with
    | oddEntry hk => simp [unknown, hk, outcomeFindings, Finding.isUnknownType]
    | failed hk => simp [unknown, hk, outcomeFindings, Finding.isUnknownType]
  | emitted code names =>
    rw [ho] at hb
    cases hb with
    | emitted hk =>
      have hnone : c.unknown [node] = [] := by simp [unknown, hk]
      rw [hnone, List.map_nil, List.filter_eq_nil_iff, List.forall_mem_map]
      intro what hwhat
      obtain ⟨name, -, hname⟩ := List.mem_flatMap.1 hwhat
      rw [isUnknownType_of_mem_nameFindings hname]
      exact Bool.false_ne_true

theorem filter_isUnknownType_findings (bound : Bindings) (nodes : List Node) :
    (findings c.target bound (c.outcomes table nodes)).filter Finding.isUnknownType =
      (c.unknown nodes).map Node.unknownType := by
  induction nodes generalizing bound with
  | nil => rfl
  | cons node nodes ih =>
    have hsplit : c.unknown (node :: nodes) = c.unknown [node] ++ c.unknown nodes :=
      List.filter_append [node] nodes
    rw [hsplit, List.map_append, ← ih (bound ++ (c.outcome table node).names.map fun name => (name, node.id)),
      ← filter_isUnknownType_outcomeFindings c table bound node]
    exact List.filter_append ..

/-- A report names the nodes of unknown types as they stand in the graph. -/
theorem unknowns_eq (h : c.compileGraph name graph table = .ok report) :
    report.unknowns = (c.unknown graph.nodes).map Node.unknownType := by
  rw [Report.unknowns, findings_of_compileGraph h, filter_isUnknownType_findings]

end Compiler

namespace CommandLine

variable {fs : FileSystem} {settings : Settings} {options : CompileOptions} {job : Job}

/-! ## What a compilation needs -/

theorem target_of_withOverrides {target : Target} {path : String} {templates : Template.Collection}
    (h : Template.Collection.withOverrides target fs path = .ok templates) : templates.target = target := by
  rw [Template.Collection.withOverrides, Template.Collection.load] at h
  split at h
  next => cases h
  next => cases h
  next tree _ _ =>
    obtain ⟨sources, -, heq⟩ := bind_eq_ok_iff.1 h
    cases heq
    rfl

/-- Settings choose the templates and the limits of the compiler for a target, and nothing else. -/
theorem exists_templates_of_ofSettings {target : Target} {c : Compiler}
    (h : Compiler.ofSettings fs settings target = .ok c) :
    ∃ templates, templates.target = target ∧ c = Template.compilerWith settings templates := by
  simp only [Compiler.ofSettings] at h
  split at h
  next =>
    cases h
    exact ⟨_, rfl, rfl⟩
  next dir _ =>
    split at h
    next =>
      split at h
      next templates htemplates =>
        cases h
        exact ⟨templates, target_of_withOverrides htemplates, rfl⟩
      next => cases h
    next =>
      cases h
      exact ⟨_, rfl, rfl⟩

theorem target_of_ofSettings {target : Target} {c : Compiler} (h : Compiler.ofSettings fs settings target = .ok c) :
    c.target = target := by
  obtain ⟨templates, htarget, rfl⟩ := exists_templates_of_ofSettings h
  exact htarget

theorem openInput_eq_error_iff {path : String} {fault : Fault} :
    openInput fs path = .error fault ↔ ∃ cause, readExperiment fs path = .error cause ∧ fault = .unread path cause := by
  rw [openInput]
  cases readExperiment fs path <;> simp [eq_comm]

theorem openInput_eq_ok_iff {path : String} {e : Experiment} :
    openInput fs path = .ok e ↔ readExperiment fs path = .ok e := by
  rw [openInput]
  cases readExperiment fs path <;> simp

theorem readExperiment_of_file {path : String} {content : ByteArray} {e : Experiment}
    (hopen : fs.open? path = .ok (.file content)) (h : Experiment.ofBytes content = .ok e) :
    readExperiment fs path = .ok e := by
  simp only [readExperiment, hopen, h]

/-- There is a compiler for each target in turn. -/
theorem forall₂_of_jobCompilers {targets : List Target} {compilers : List Compiler}
    (h : jobCompilers fs settings targets = .ok compilers) :
    List.Forall₂ (fun target c => Compiler.ofSettings fs settings target = .ok c) targets compilers := by
  induction targets generalizing compilers with
  | nil =>
    cases h
    exact .nil
  | cons target targets ih =>
    rw [jobCompilers] at h
    cases hc : Compiler.ofSettings fs settings target with
    | error cause => rw [hc] at h; cases h
    | ok c =>
      rw [hc] at h
      cases hcs : jobCompilers fs settings targets with
      | error fault => rw [hcs] at h; cases h
      | ok cs =>
        rw [hcs] at h
        cases h
        exact .cons hc (ih hcs)

/-- What is ready for a compilation. -/
structure Prepared (fs : FileSystem) (settings : Settings) (options : CompileOptions) (job : Job) : Prop where
  read : openInput fs options.input = .ok job.experiment
  named : jobName options = .ok job.name
  compilers : jobCompilers fs (jobSettings settings options) (options.targets.getD settings.targets) = .ok job.compilers
  output : job.output = options.output
  made : fs.makeDirs options.output = .ok job.files

theorem prepared_of_prepare (h : prepare fs settings options = .ok job) : Prepared fs settings options job := by
  simp only [prepare, bind_eq_ok_iff] at h
  obtain ⟨e, he, name, hname, compilers, hcompilers, h⟩ := h
  split at h
  next => cases h
  next files hfiles =>
    cases h
    exact ⟨he, hname, hcompilers, rfl, hfiles⟩

theorem jobName_ne_unread (options : CompileOptions) (path : String) (cause : Failure) :
    jobName options ≠ .error (.unread path cause) := by
  rw [jobName]
  split <;> simp

theorem jobCompilers_ne_unread (targets : List Target) (path : String) (cause : Failure) :
    jobCompilers fs settings targets ≠ .error (.unread path cause) := by
  induction targets with
  | nil => simp [jobCompilers]
  | cons target targets ih =>
    rw [jobCompilers]
    cases Compiler.ofSettings fs settings target with
    | error cause => simp
    | ok c =>
      cases hcs : jobCompilers fs settings targets with
      | error fault => simpa [Except.map, hcs] using ih
      | ok cs => simp [Except.map]

/-- Nothing but its document is reported as unreadable by a compilation. -/
theorem prepare_eq_unread_iff {path : String} {cause : Failure} :
    prepare fs settings options = .error (.unread path cause) ↔
      openInput fs options.input = .error (.unread path cause) := by
  rw [prepare, bind_eq_error_iff]
  constructor
  · intro h
    rcases h with h | ⟨e, -, h⟩
    · exact h
    rcases bind_eq_error_iff.1 h with h | ⟨name, -, h⟩
    · exact absurd h (jobName_ne_unread options path cause)
    rcases bind_eq_error_iff.1 h with h | ⟨compilers, -, h⟩
    · exact absurd h (jobCompilers_ne_unread _ path cause)
    split at h <;> cases h
  · intro h
    exact .inl h

/-! ## Checks -/

/-- A check that tells what the report of a compilation says. -/
structure Forecast (e : Experiment) (checked : Outcome) (report : Report) : Prop where
  /-- A compilation finds the nodes that the check leaves out, in order and as often. -/
  unknowns : report.unknowns = (skipped e).map Node.unknownType
  /-- There is a note for each of them. -/
  notes : checked.notes = report.unknowns.map fun f =>
    "note: node '" ++ f.nodeId ++ "' has unsupported type '" ++ f.nodeType ++ "' and will be skipped"
  /-- The nodes that are counted are emitted or omitted. -/
  answer : checked.answer = ["ok: " ++ toString (report.fragments.length + report.omitted) ++ " nodes, "
    ++ toString e.graph.edges.length ++ " edges, " ++ toString e.properties.length ++ " property entries"]

/-- A check beside a compilation of the same file. -/
structure Foretells (fs : FileSystem) (settings : Settings) (options : CompileOptions) (checked compiled : Outcome) :
    Prop where
  /-- A check succeeds just if a compilation can read the document, -/
  succeeds : checked.code = 0 ↔ ∀ path cause, prepare fs settings options ≠ .error (.unread path cause)
  /-- and what keeps the one from it keeps the other, with the same report. -/
  fails : ∀ path cause, prepare fs settings options = .error (.unread path cause) →
    checked.files = fs ∧ checked.answer = [] ∧ checked.code = 1 ∧
      checked.notes = ["Error: " ++ ("read experiment '" ++ path ++ "'"), "", "Caused by:"] ++
        (Text.splitAt '\n' cause.message).map ("    " ++ ·) ∧
      compiled = checked
  /-- A compilation goes on with what was read, with a compiler for each of its targets. -/
  goesOn : ∀ job, prepare fs settings options = .ok job →
    openInput fs options.input = .ok job.experiment ∧
      List.Forall₂ (fun target c => Compiler.ofSettings fs (jobSettings settings options) target = .ok c)
        (options.targets.getD settings.targets) job.compilers
  /-- Whatever the targets, the templates and the limits are. -/
  forecasts : ∀ e, openInput fs options.input = .ok e →
    ∀ fs' settings' target c, Compiler.ofSettings fs' settings' target = .ok c →
      ∀ name report, c.compile name e = .ok report → Forecast e checked report

theorem skipped_eq_unknown {c : Compiler} (h : c.palette = Component.builtin) (e : Experiment) :
    skipped e = c.unknown e.graph.nodes := by
  rw [skipped, Compiler.unknown, h]

theorem forecast_of_compile {e : Experiment} {checked : Outcome} {c : Compiler} {name : String} {report : Report}
    (hanswer : checked.answer = [census e]) (hnotes : checked.notes = (skipped e).map skipNote)
    (hc : c.palette = Component.builtin) (h : c.compile name e = .ok report) : Forecast e checked report := by
  have hunknowns : report.unknowns = (skipped e).map Node.unknownType := by
    rw [Compiler.unknowns_eq h, skipped_eq_unknown hc]
  refine ⟨hunknowns, ?_, ?_⟩
  · rw [hnotes, hunknowns, List.map_map]
    rfl
  · rw [hanswer, Compiler.length_fragments_add_omitted h]
    rfl

/-- **A check foretells compilations.** It succeeds just if a compilation can
read the document, and fails with the same report otherwise. Of a document that
can be read it names the nodes that every compilation finds to be of an unknown
type, in order and as often, and the number of nodes that every compilation
emits or omits. -/
theorem foretells_check {environment : List (String × String)} {checkArgs compileArgs : List String}
    {checkConfig config : Option String} {checkSettings : Settings}
    (hcheck : read checkArgs = .run checkConfig (.check options.input))
    (hcompile : read compileArgs = .run config (.compile options))
    (hloads : Settings.load fs environment checkConfig = .ok checkSettings)
    (hload : Settings.load fs environment config = .ok settings) :
    Foretells fs settings options (run fs environment checkArgs) (run fs environment compileArgs) := by
  have hchecked : run fs environment checkArgs = check fs options.input := by
    simp only [run, hcheck, runCommand, hloads]
  have hcompiled : run fs environment compileArgs = compile fs settings options := by
    simp only [run, hcompile, runCommand, hload]
  rw [hchecked, hcompiled]
  refine ⟨?_, ?_, ?_, ?_⟩
  · rw [check]
    cases he : openInput fs options.input with
    | error fault =>
      obtain ⟨cause, -, rfl⟩ := openInput_eq_error_iff.1 he
      refine iff_of_false Nat.one_ne_zero fun h => h options.input cause ?_
      exact prepare_eq_unread_iff.2 he
    | ok e =>
      refine iff_of_true rfl fun path cause h => ?_
      rw [prepare_eq_unread_iff, he] at h
      cases h
  · intro path cause h
    have he := prepare_eq_unread_iff.1 h
    rw [check, compile, he, h]
    exact ⟨rfl, rfl, rfl, rfl, rfl⟩
  · intro job h
    have hp := prepared_of_prepare h
    exact ⟨hp.read, forall₂_of_jobCompilers hp.compilers⟩
  · intro e he fs' settings' target c hc name report h
    obtain ⟨templates, -, rfl⟩ := exists_templates_of_ofSettings hc
    rw [check, he]
    exact forecast_of_compile rfl rfl rfl h

/-- Two nodes with one id and of an unknown type, and a node of a known type between them. -/
def mystery : Experiment :=
  { graph := { nodes := [Node.bare "a" "mystery", Node.bare "b" "text", Node.bare "a" "mystery"], edges := [] }
    properties := [] }

/-- A directory with one document. -/
def mysteryFiles : FileSystem :=
  { root := .dir [("m.json", .file (Json.text mystery.toJson).toUTF8)], current := [] }

def mysteryOptions : CompileOptions :=
  { input := "m.json", name := none, targets := none, output := ".", templates := none, strict := false }

/-- Without a file and an environment there is what is preset. -/
theorem load_preset (fs : FileSystem) : Settings.load fs [] none = .ok Settings.preset := by
  have hload : Settings.load fs [] none =
      Settings.ofValue (Settings.presetValue.overlay (Settings.Environment.source [])) := rfl
  rw [hload]
  exact eq_ok_of_toOption (by decide +kernel)

/-- What was written to a file is read from its characters. -/
theorem ofBytes_text (t : Json) :
    Experiment.ofBytes (Json.text t).toUTF8 =
      ((Json.standard.readTree Json.depthLimit (Json.compact.write Json.Number.token t)).bind Json.settle).elim
        (.error .unreadable) Experiment.ofDocument := by
  have htext : String.fromUTF8? (Json.text t).toUTF8 = some (Json.text t) := by
    simp [String.fromUTF8?, (Json.text t).isValidUTF8, String.fromUTF8]
  have hchars : (Json.text t).toList = Json.compact.write Json.Number.token t := String.toList_ofList
  rw [Experiment.ofBytes, htext]
  simp only [Experiment.ofText, Json.read, hchars]
  cases (Json.standard.readTree Json.depthLimit (Json.compact.write Json.Number.token t)).bind Json.settle <;> rfl

theorem readExperiment_mystery :
    ∃ e, readExperiment mysteryFiles "m.json" = .ok e ∧
      e.graph.nodes.map (fun node => (node.id, node.type)) = [("a", "mystery"), ("b", "text"), ("a", "mystery")] := by
  have hread : (Experiment.ofBytes (Json.text mystery.toJson).toUTF8).toOption.map (fun e =>
      e.graph.nodes.map fun node => (node.id, node.type)) =
        some [("a", "mystery"), ("b", "text"), ("a", "mystery")] := by
    rw [ofBytes_text]
    decide +kernel
  obtain ⟨e, he, hnodes⟩ := Option.map_eq_some_iff.1 hread
  exact ⟨e, readExperiment_of_file rfl (eq_ok_of_toOption he), hnodes⟩

theorem skipped_mystery {e : Experiment}
    (h : e.graph.nodes.map (fun node => (node.id, node.type)) = [("a", "mystery"), ("b", "text"), ("a", "mystery")]) :
    (skipped e).map Node.unknownType = [⟨"a", "mystery", .unknownType⟩, ⟨"a", "mystery", .unknownType⟩] := by
  have hskipped : (skipped e).map Node.unknownType =
      ((e.graph.nodes.map fun node => (node.id, node.type)).filter fun p =>
        (Component.builtin.get? p.2).isNone).map fun p => ⟨p.1, p.2, .unknownType⟩ := by
    rw [skipped, List.filter_map, List.map_map]
    rfl
  rw [hskipped, h]
  decide +kernel

/-- One of two equal nodes is not forgotten, and the node between them is not mentioned. -/
theorem foretells_check_mystery :
    ∃ e checked compiled report,
      run mysteryFiles [] ["check", "--in", "m.json"] = checked ∧
        run mysteryFiles [] ["compile", "--in", "m.json"] = compiled ∧
        Foretells mysteryFiles Settings.preset mysteryOptions checked compiled ∧
        (Compiler.builtin .desktop).compile "m" e = .ok report ∧ Forecast e checked report ∧
        report.unknowns = [⟨"a", "mystery", .unknownType⟩, ⟨"a", "mystery", .unknownType⟩] ∧
        checked.notes = ["note: node 'a' has unsupported type 'mystery' and will be skipped",
          "note: node 'a' has unsupported type 'mystery' and will be skipped"] := by
  obtain ⟨e, he, hnodes⟩ := readExperiment_mystery
  have hcheck : read ["check", "--in", "m.json"] = .run none (.check mysteryOptions.input) := by decide +kernel
  have hcompile : read ["compile", "--in", "m.json"] = .run none (.compile mysteryOptions) := by decide +kernel
  have hforetells := foretells_check hcheck hcompile (load_preset mysteryFiles) (load_preset mysteryFiles)
  have hlength : e.graph.nodes.length = 3 := by simpa using congrArg List.length hnodes
  obtain ⟨report, hreport⟩ := @Compiler.compileGraph_upTo .desktop e.graph Settings.preset.maxNodes "m" e.properties
    (hlength ▸ by decide)
  have hforecast := hforetells.forecasts e (openInput_eq_ok_iff.2 he) mysteryFiles Settings.preset .desktop _ rfl "m"
    report hreport
  have hunknowns : report.unknowns = [⟨"a", "mystery", .unknownType⟩, ⟨"a", "mystery", .unknownType⟩] := by
    rw [hforecast.unknowns, skipped_mystery hnodes]
  refine ⟨e, _, _, report, rfl, rfl, hforetells, hreport, hforecast, hunknowns, ?_⟩
  rw [hforecast.notes, hunknowns]
  decide +kernel

end CommandLine

end FlowScript
