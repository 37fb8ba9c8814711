/-
What a compilation leaves behind. Targets are compiled in turn, up to the first
that fails (`Compiles`). Each that does not gets a file of its own and a note
for each finding before the note that it was written; after each the run has
`Reached` just that, and every other place is as it was. Strictness has no part
in this: it turns findings into a failure when everything is written
(`completes_run`).
-/
import FlowScript.Proofs.Arguments
import FlowScript.Proofs.Checking
import FlowScript.Proofs.Writing

namespace FlowScript

theorem Compiler.target_of_compile {c : Compiler} {name : String} {e : Experiment} {report : Report}
    (h : c.compile name e = .ok report) : report.target = c.target := by
  obtain ⟨-, source, -, rfl⟩ := compileGraph_eq_ok_iff.1 h
  rfl

namespace Identifier

/-- What is sanitized has letters, digits and underscores only. -/
theorem isPart_of_mem_sanitize {s : String} {c : Char} (h : c ∈ (sanitize s).toList) : isPart c = true := by
  have hid := isIdentifier_sanitize s
  rw [isIdentifier] at hid
  cases hs : (sanitize s).toList with
  | nil => rw [hs] at h; cases h
  | cons d cs =>
    rw [hs] at hid h
    obtain ⟨hd, hcs⟩ := Bool.and_eq_true_iff.1 hid
    rcases List.mem_cons.1 h with rfl | hc
    · exact isPart_of_isStart hd
    · exact List.all_eq_true.1 hcs c hc

end Identifier

namespace CommandLine

/-! ## Where programs go -/

namespace Job

/-- The name of the file with the program for a target. -/
def fileName (job : Job) (target : Target) : String := Identifier.sanitize job.name ++ "." ++ target.extension

/-- The place of the program for a target, once the directory for it is there. -/
def IsPlace (job : Job) (target : Target) (place : List String) : Prop :=
  ∃ parent name, job.files.Leads (job.path target) parent name ∧ place = parent ++ [name]

/-- What is said of a program that was written, after what was found about its nodes. -/
def account (job : Job) (r : Report) : List String :=
  r.findings.map (warning r.target) ++ [wrote (job.path r.target) r]

variable {job : Job} {target target' : Target} {place : List String}

theorem slash_notMem_fileName (job : Job) (target : Target) : '/' ∉ (job.fileName target).toList := by
  intro h
  rw [fileName, String.toList_append, String.toList_append, List.mem_append, List.mem_append] at h
  rcases h with (h | h) | h
  · have hpart := Identifier.isPart_of_mem_sanitize h
    revert hpart
    decide
  · revert h
    decide
  · revert h
    cases target <;> decide

theorem fileName_ne_empty (job : Job) (target : Target) : job.fileName target ≠ "" := by
  simp [fileName]

theorem fileName_injective (h : job.fileName target = job.fileName target') : target = target' := by
  have hextension : target.extension = target'.extension := by
    simpa [fileName] using h
  revert hextension
  cases target <;> cases target' <;> decide

/-- The path of a program leads to its name in the directory for the programs. -/
theorem leads_path {fs : FileSystem} {parent : List String} {name : String}
    (h : fs.Leads (job.path target) parent name) :
    fs.walk (fs.start job.output) (Path.names job.output) = .ok parent ∧ name = job.fileName target := by
  obtain ⟨before, hsteps, hwalk⟩ := h.walks
  have hjoin : Path.steps (job.path target) = Path.names job.output ++ [job.fileName target] :=
    Path.steps_join job.output (fileName_ne_empty job target) (slash_notMem_fileName job target)
  have hstart : fs.start (job.path target) = fs.start job.output := by
    have habsolute : Path.isAbsolute (job.path target) = Path.isAbsolute job.output :=
      Path.isAbsolute_join job.output (slash_notMem_fileName job target)
    rw [FileSystem.start, FileSystem.start, habsolute]
  rw [hjoin] at hsteps
  obtain ⟨rfl, hname⟩ := List.append_inj' hsteps rfl
  rw [hstart] at hwalk
  exact ⟨hwalk, (List.singleton_inj.1 hname).symm⟩

/-- No two targets have the same place. -/
theorem IsPlace.apart (h : job.IsPlace target place) (h' : job.IsPlace target' place) : target = target' := by
  obtain ⟨parent, name, hleads, rfl⟩ := h
  obtain ⟨parent', name', hleads', heq⟩ := h'
  have hname := List.singleton_inj.1 (List.append_inj' heq rfl).2
  rw [(leads_path hleads).2, (leads_path hleads').2] at hname
  exact fileName_injective hname

end Job

/-! ## Runs over targets -/

/-- Compilations in turn, up to the first that fails. -/
inductive Compiles (name : String) (e : Experiment) : List Compiler → List Report → Option (Target × Failure) → Prop
  | done : Compiles name e [] [] none
  | failed {c cause} (compilers : List Compiler) (h : c.compile name e = .error cause) :
      Compiles name e (c :: compilers) [] (some (c.target, cause))
  | next {c report compilers reports failure} (h : c.compile name e = .ok report)
      (hrest : Compiles name e compilers reports failure) :
      Compiles name e (c :: compilers) (report :: reports) failure

/-- How far a run has come that has written the programs in some reports. -/
structure Reached (job : Job) (reports : List Report) (p : Progress) : Prop where
  notes : p.notes = reports.flatMap job.account
  findings : p.findings = (reports.flatMap Report.findings).length
  current : p.files.current = job.files.current
  directory_iff : ∀ q, p.files.entryAt? q = some .directory ↔ job.files.entryAt? q = some .directory
  held : ∀ r ∈ reports, ∃ place, job.IsPlace r.target place ∧ p.files.entryAt? place = some (.file r.source.toUTF8)
  /-- All other places are as they were. -/
  kept : ∀ q, (∀ r ∈ reports, ¬ job.IsPlace r.target q) → p.files.entryAt? q = job.files.entryAt? q

/-- The beginning of a run. -/
def Job.begun (job : Job) : Progress := { files := job.files, notes := [], findings := 0 }

variable {job : Job} {reports : List Report} {report : Report} {p : Progress} {files : FileSystem}

theorem reached_begun (job : Job) : Reached job [] job.begun :=
  ⟨rfl, rfl, rfl, fun _ => Iff.rfl, nofun, fun _ _ => rfl⟩

/-- One more program is written; a program for the same target was the same. -/
theorem Reached.next (h : Reached job reports p) (hsame : ∀ r ∈ reports, r.target = report.target → r = report)
    (hwrite : p.files.write (job.path report.target) report.source.toUTF8 = .ok files) :
    Reached job (reports ++ [report])
      { files, notes := p.notes ++ job.account report, findings := p.findings + report.findings.length } := by
  obtain ⟨parent, name, hleads, hover⟩ := FileSystem.overwrites_of_write hwrite
  have hplace : job.IsPlace report.target (parent ++ [name]) :=
    ⟨parent, name, hleads.of_directories h.current.symm fun q => (h.directory_iff q).symm, rfl⟩
  refine ⟨?_, ?_, hover.current.trans h.current, ?_, ?_, ?_⟩
  · rw [h.notes, List.flatMap_append, List.flatMap_singleton]
  · simp [h.findings]
  · intro q
    rw [hover.directory_iff hleads.free, h.directory_iff]
  · intro r hr
    rcases List.mem_append.1 hr with hr | hr
    · obtain ⟨place, hr', hheld⟩ := h.held r hr
      by_cases hq : place = parent ++ [name]
      · subst hq
        have htarget := hr'.apart hplace
        rw [hsame r hr htarget]
        exact ⟨_, hplace, hover.written⟩
      · exact ⟨place, hr', (hover.kept place hq).trans hheld⟩
    · rw [List.mem_singleton.1 hr]
      exact ⟨_, hplace, hover.written⟩
  · intro q hq
    have hne : q ≠ parent ++ [name] := by
      intro heq
      subst heq
      exact hq report (by simp) hplace
    exact (hover.kept q hne).trans (h.kept q fun r hr => hq r (List.mem_append_left _ hr))

/-- What is written can be opened by its path. -/
theorem Reached.open?_path (h : Reached job reports p) (hr : report ∈ reports) :
    p.files.open? (job.path report.target) = .ok (.file report.source.toUTF8) := by
  obtain ⟨place, ⟨parent, name, hleads, rfl⟩, hheld⟩ := h.held report hr
  exact (hleads.of_directories h.current h.directory_iff).open?_eq hheld

theorem compileOne_of_write {c : Compiler} (h : c.compile job.name job.experiment = .ok report)
    (hwrite : p.files.write (job.path report.target) report.source.toUTF8 = .ok files) :
    compileOne job c p =
      ({ files, notes := p.notes ++ job.account report, findings := p.findings + report.findings.length }, none) := by
  have htarget := Compiler.target_of_compile h
  simp only [compileOne, h, ← htarget, hwrite, Job.account, List.append_assoc]

theorem compileOne_of_unwritten {c : Compiler} {cause : OsError} (h : c.compile job.name job.experiment = .ok report)
    (hwrite : p.files.write (job.path report.target) report.source.toUTF8 = .error cause) :
    ∃ p', compileOne job c p = (p', some (.unwritten (job.path report.target) cause)) := by
  have htarget := Compiler.target_of_compile h
  simp only [compileOne, h, ← htarget, hwrite]
  exact ⟨_, rfl⟩

/-- A report of one of the compilers of a job. -/
def Job.Reports (job : Job) (r : Report) : Prop := ∃ c ∈ job.compilers, c.compile job.name job.experiment = .ok r

/-- A run in which no write fails writes the programs of the targets that compile before the first that does not. -/
theorem reached_compileEach
    (hsame : ∀ r r', job.Reports r → job.Reports r' → r.target = r'.target → r = r')
    {compilers : List Compiler} (hmem : ∀ c ∈ compilers, c ∈ job.compilers) {before : List Report}
    (hbefore : ∀ r ∈ before, job.Reports r) (h : Reached job before p)
    (hwrites : ∀ path cause, (compileEach job compilers p).2 ≠ some (.unwritten path cause)) :
    ∃ reports failure, Compiles job.name job.experiment compilers reports failure ∧
      Reached job (before ++ reports) (compileEach job compilers p).1 ∧
      (compileEach job compilers p).2 = failure.map fun f => .uncompiled f.1 f.2 := by
  -- what is written before decides nothing about the compilers that are left, so it is kept apart from them
  induction compilers generalizing before p with
  | nil => exact ⟨[], none, .done, by rwa [List.append_nil], rfl⟩
  | cons c compilers ih =>
    obtain ⟨hc, hrest⟩ := List.forall_mem_cons.1 hmem
    cases hcompile : c.compile job.name job.experiment with
    | error cause =>
      have hone : compileOne job c p = (p, some (.uncompiled c.target cause)) := by rw [compileOne, hcompile]
      refine ⟨[], some (c.target, cause), .failed compilers hcompile, ?_⟩
      rw [compileEach, hone, List.append_nil]
      exact ⟨h, rfl⟩
    | ok report =>
      have hreport : job.Reports report := ⟨c, hc, hcompile⟩
      cases hwrite : p.files.write (job.path report.target) report.source.toUTF8 with
      | error cause =>
        obtain ⟨p', hone⟩ := compileOne_of_unwritten hcompile hwrite
        rw [compileEach, hone] at hwrites
        exact absurd rfl (hwrites _ cause)
      | ok files =>
        have hnext := h.next (fun r hr => hsame r report (hbefore r hr) hreport) hwrite
        rw [compileEach, compileOne_of_write hcompile hwrite] at hwrites ⊢
        have hbefore' : ∀ r ∈ before ++ [report], job.Reports r := by
          intro r hr
          rcases List.mem_append.1 hr with hr | hr
          · exact hbefore r hr
          · exact List.mem_singleton.1 hr ▸ hreport
        obtain ⟨reports, failure, hcompiles, hreached, hfault⟩ := ih hrest hbefore' hnext hwrites
        refine ⟨report :: reports, failure, .next hcompile hcompiles, ?_, hfault⟩
        rwa [List.append_assoc, List.singleton_append] at hreached

/-! ## Commands -/

variable {fs : FileSystem} {settings : Settings} {options : CompileOptions}

theorem targets_of_jobCompilers {targets : List Target} {compilers : List Compiler}
    (h : jobCompilers fs settings targets = .ok compilers) : compilers.map Compiler.target = targets := by
  have hcompilers := forall₂_of_jobCompilers h
  clear h
  induction hcompilers with
  | nil => rfl
  | cons hc _ ih => rw [List.map_cons, target_of_ofSettings hc, ih]

theorem ofSettings_of_mem_jobCompilers {targets : List Target} {compilers : List Compiler}
    (h : jobCompilers fs settings targets = .ok compilers) {c : Compiler} (hc : c ∈ compilers) :
    Compiler.ofSettings fs settings c.target = .ok c := by
  have hcompilers := forall₂_of_jobCompilers h
  clear h
  induction hcompilers with
  | nil => cases hc
  | cons hfirst _ ih =>
    rcases List.mem_cons.1 hc with rfl | hc
    · rwa [target_of_ofSettings hfirst]
    · exact ih hc

/-- Reports for one target are the same, however often it is asked for. -/
theorem Prepared.report_unique (h : Prepared fs settings options job) {r r' : Report} (hr : job.Reports r)
    (hr' : job.Reports r') (htarget : r.target = r'.target) : r = r' := by
  obtain ⟨c, hc, hcompile⟩ := hr
  obtain ⟨c', hc', hcompile'⟩ := hr'
  rw [Compiler.target_of_compile hcompile, Compiler.target_of_compile hcompile'] at htarget
  have hof := ofSettings_of_mem_jobCompilers h.compilers hc
  rw [htarget, ofSettings_of_mem_jobCompilers h.compilers hc'] at hof
  cases hof
  exact Except.ok.inj (hcompile.symm.trans hcompile')

/-- What a compilation comes to that can use its document, name, templates and directory and can
write its programs. -/
structure Completes (fs : FileSystem) (settings : Settings) (options : CompileOptions) (job : Job)
    (reports : List Report) (failure : Option (Target × Failure)) (outcome : Outcome) : Prop where
  prepared : Prepared fs settings options job
  targets : job.compilers.map Compiler.target = options.targets.getD settings.targets
  configured : ∀ c ∈ job.compilers, Compiler.ofSettings fs (jobSettings settings options) c.target = .ok c
  compiles : Compiles job.name job.experiment job.compilers reports failure
  answer : outcome.answer = []
  /-- A warning for each finding, a line for each program with how many nodes are in it and how many
  were left out, and at the end why it failed. -/
  notes : outcome.notes =
    (reports.flatMap fun r =>
      (r.findings.map fun f =>
        "warning[" ++ r.target.name ++ "]: " ++ ("node '" ++ f.nodeId ++ "' (" ++ f.nodeType ++ "): " ++
          match f.what with
          | .unknownType => "unsupported node type, skipped"
          | .failed cause => "render failed, skipped: " ++ cause.message
          | .collision name firstId => "identifier '" ++ name ++ "' is also used by node '" ++ firstId ++ "'"
          | .reserved name => "identifier '" ++ name ++ "' is reserved in the target language")) ++
      ["wrote " ++ Path.join options.output (Identifier.sanitize job.name ++ "." ++ r.target.extension) ++ " ("
        ++ r.target.codeField ++ " field, " ++ toString r.fragments.length ++ " nodes emitted, "
        ++ toString r.omitted ++ " omitted, fingerprint " ++ r.fingerprint.text ++ ")"]) ++
    match failure with
    | none => []
    | some (target, cause) =>
      ["Error: " ++ ("compile " ++ target.name), "", "Caused by:"] ++
        (Text.splitAt '\n' cause.message).map ("    " ++ ·)
  code : outcome.code = if failure.isSome then 1 else 0
  /-- The two numbers of a program add up to all nodes. -/
  counted : ∀ r ∈ reports, r.fragments.length + r.omitted = job.experiment.graph.nodes.length
  written : ∀ r ∈ reports, outcome.files.open? (Path.join options.output
    (Identifier.sanitize job.name ++ "." ++ r.target.extension)) = .ok (.file r.source.toUTF8)
  held : ∀ r ∈ reports, ∃ place, job.IsPlace r.target place ∧
    outcome.files.entryAt? place = some (.file r.source.toUTF8)
  /-- Nothing else changes but that there can be new directories. -/
  kept : ∀ q, (∀ r ∈ reports, ¬ job.IsPlace r.target q) → outcome.files.entryAt? q = fs.entryAt? q ∨
    fs.entryAt? q = none ∧ outcome.files.entryAt? q = some .directory
  untouched : ∀ target, target ∉ reports.map Report.target → ∀ q, job.IsPlace target q →
    outcome.files.entryAt? q = fs.entryAt? q
  apart : ∀ target target' q, job.IsPlace target q → job.IsPlace target' q → target = target'
  /-- All places are in the one directory. -/
  beside : ∀ target q, job.IsPlace target q → ∃ parent,
    job.files.walk (job.files.start options.output) (Path.names options.output) = .ok parent ∧
      q = parent ++ [job.fileName target]

/-- What strictness makes of the same compilation. -/
structure Stricter (reports : List Report) (plain strict : Outcome) : Prop where
  files : strict.files = plain.files
  answer : strict.answer = plain.answer
  /-- All that is added is a note of how much was found, and only if nothing failed before. -/
  notes : strict.notes = plain.notes ++
    if plain.code = 0 ∧ ∃ r ∈ reports, r.findings ≠ [] then
      ["Error: " ++ (toString (reports.flatMap Report.findings).length ++ " diagnostic(s) reported")]
    else []
  code : strict.code ≠ 0 ↔ plain.code ≠ 0 ∨ ∃ r ∈ reports, r.findings ≠ []

theorem length_findings_ne_zero_iff :
    (reports.flatMap Report.findings).length ≠ 0 ↔ ∃ r ∈ reports, r.findings ≠ [] := by
  rw [Ne, List.length_eq_zero_iff, List.flatMap_eq_nil_iff]
  simp

theorem Compiles.counted {name : String} {e : Experiment} {compilers : List Compiler}
    {failure : Option (Target × Failure)} (h : Compiles name e compilers reports failure) :
    ∀ r ∈ reports, r.fragments.length + r.omitted = e.graph.nodes.length := by
  induction h with
  | done => exact nofun
  | failed => exact nofun
  | next h _ ih => exact List.forall_mem_cons.2 ⟨Compiler.length_fragments_add_omitted h, ih⟩

/-- A run that has come to its end leaves behind what it has reached. -/
theorem completes_finish (hprepared : Prepared fs settings options job) {failure : Option (Target × Failure)}
    (hcompiles : Compiles job.name job.experiment job.compilers reports failure) (h : Reached job reports p) :
    Completes fs settings options job reports failure
      (finish p (failure.map fun f => .uncompiled f.1 f.2)) := by
  have hgrows := FileSystem.grows_makeDirs hprepared.made
  have hfiles : (finish p (failure.map fun f => .uncompiled f.1 f.2)).files = p.files := by
    cases failure <;> rfl
  have hpath : ∀ target, Path.join options.output (Identifier.sanitize job.name ++ "." ++ target.extension) =
      job.path target := by
    intro target
    rw [Job.path, hprepared.output]
  refine ⟨hprepared, targets_of_jobCompilers hprepared.compilers,
    fun c => ofSettings_of_mem_jobCompilers hprepared.compilers, hcompiles, ?_, ?_, ?_, hcompiles.counted,
    ?_, ?_, ?_, ?_, fun _ _ _ => Job.IsPlace.apart, ?_⟩
  · cases failure <;> rfl
  · rw [← hprepared.output]
    cases failure with
    | none => exact h.notes.trans (List.append_nil _).symm
    | some f => exact congrArg (· ++ _) h.notes
  · cases failure <;> rfl
  · intro r hr
    rw [hfiles, hpath]
    exact h.open?_path hr
  · rw [hfiles]
    exact h.held
  · intro q hq
    rw [hfiles, h.kept q hq]
    exact hgrows.entries q
  · intro target htarget q hq
    have hother : ∀ r ∈ reports, ¬ job.IsPlace r.target q := by
      intro r hr hplace
      exact htarget (List.mem_map.2 ⟨r, hr, hplace.apart hq⟩)
    rw [hfiles, h.kept q hother]
    obtain ⟨parent, name, hleads, rfl⟩ := hq
    exact (hgrows.entries _).resolve_right fun hnew => hleads.free hnew.2
  · intro target q hq
    obtain ⟨parent, name, hleads, rfl⟩ := hq
    obtain ⟨hwalk, rfl⟩ := Job.leads_path hleads
    exact ⟨parent, hprepared.output ▸ hwalk, rfl⟩

/-- Strictness only counts what was found. -/
theorem stricter_finish (h : Reached job reports p) (failure : Option (Target × Failure)) :
    Stricter reports (finish p (verdict false p (failure.map fun f => .uncompiled f.1 f.2)))
      (finish p (verdict true p (failure.map fun f => .uncompiled f.1 f.2))) := by
  cases failure with
  | some f => exact ⟨rfl, rfl, by simp [finish, verdict], by simp [finish, verdict]⟩
  | none =>
    rw [Option.map_none]
    by_cases hfound : ∃ r ∈ reports, r.findings ≠ []
    · have hlength := length_findings_ne_zero_iff.2 hfound
      have hverdict : verdict true p none = some (.findings (reports.flatMap Report.findings).length) := by
        rw [verdict, h.findings, Bool.true_and, if_pos (bne_iff_ne.2 hlength)]
      rw [hverdict]
      exact ⟨rfl, rfl, congrArg (p.notes ++ ·) (if_pos ⟨rfl, hfound⟩).symm, iff_of_true Nat.one_ne_zero (.inr hfound)⟩
    · have hlength := not_not.1 (mt length_findings_ne_zero_iff.1 hfound)
      have hverdict : verdict true p none = none := by
        rw [verdict, h.findings, hlength]
        rfl
      rw [hverdict]
      refine ⟨rfl, rfl, ?_, iff_of_false (not_not.2 rfl) (not_or.2 ⟨not_not.2 rfl, hfound⟩)⟩
      rw [if_neg fun hdirty => hfound hdirty.2]
      exact (List.append_nil _).symm

/-- **A compilation writes what its compilers produce, and strictness only
changes the verdict.** Targets are compiled in turn up to the first that fails;
every program that compiles is written to a file of its own, after a warning for
each finding and before a line that counts the nodes in it and those left out,
and no other file changes. The same compilation made strict writes and notes the
same, and fails if the other fails or anything was found. -/
theorem completes_run {environment : List (String × String)} {args : List String} {config : Option String}
    (hread : read args = .run config (.compile options)) (hplain : options.strict = false)
    (hload : Settings.load fs environment config = .ok settings) (hprepare : prepare fs settings options = .ok job)
    (hwrites : ∀ path cause, (compileEach job job.compilers job.begun).2 ≠ some (.unwritten path cause)) :
    ∃ reports failure, Completes fs settings options job reports failure (run fs environment args) ∧
      (∀ strictArgs, read strictArgs = .run config (.compile { options with strict := true }) →
        Stricter reports (run fs environment args) (run fs environment strictArgs)) ∧
      (args.getLast? ≠ some "--" →
        Stricter reports (run fs environment args) (run fs environment (args ++ ["--strict"]))) := by
  have hprepared := prepared_of_prepare hprepare
  have hnone : ∀ r ∈ ([] : List Report), job.Reports r := nofun
  obtain ⟨reports, failure, hcompiles, hreached, hfault⟩ :=
    reached_compileEach (fun _ _ => hprepared.report_unique) (fun _ => id) hnone (reached_begun job) hwrites
  have hrun : ∀ strict args, read args = .run config (.compile { options with strict }) →
      run fs environment args =
        finish (compileEach job job.compilers job.begun).1
          (verdict strict (compileEach job job.compilers job.begun).1 (failure.map fun f => .uncompiled f.1 f.2)) := by
    intro strict args hread
    have hprepare' : prepare fs settings { options with strict } = .ok job := hprepare
    simp only [run, hread, runCommand, hload, compile, hprepare']
    rw [← hfault]
    rfl
  have hcommand : read args = .run config (.compile { options with strict := false }) := by rw [← hplain, hread]
  have hverdict : ∀ fault?, verdict false (compileEach job job.compilers job.begun).1 fault? = fault? := by
    intro fault?
    cases fault? <;> rfl
  have hstricter : ∀ strictArgs, read strictArgs = .run config (.compile { options with strict := true }) →
      Stricter reports (run fs environment args) (run fs environment strictArgs) := by
    intro strictArgs hstrict
    rw [hrun false args hcommand, hrun true strictArgs hstrict]
    exact stricter_finish hreached failure
  refine ⟨reports, failure, ?_, hstricter, fun hlast => hstricter _ (read_append_strict hread hplain hlast)⟩
  rw [hrun false args hcommand, hverdict]
  exact completes_finish hprepared hcompiles hreached

def desktopOptions : CompileOptions := { mysteryOptions with targets := some [.desktop] }

theorem write_beside (before content : ByteArray) :
    FileSystem.write { root := .dir [("m.json", .file before)], current := [] } "./m.py" content =
      .ok { root := .dir [("m.json", .file before), ("m.py", .file content)], current := [] } :=
  rfl

/-- A compilation that leaves two nodes out succeeds if it is not strict. -/
theorem completes_run_mystery :
    ∃ job report, Completes mysteryFiles Settings.preset desktopOptions job [report] none
        (run mysteryFiles [] ["compile", "--in", "m.json", "--target", "desktop"]) ∧
      Stricter [report] (run mysteryFiles [] ["compile", "--in", "m.json", "--target", "desktop"])
        (run mysteryFiles [] ["compile", "--in", "m.json", "--target", "desktop", "--strict"]) ∧
      (run mysteryFiles [] ["compile", "--in", "m.json", "--target", "desktop"]).code = 0 ∧
      (run mysteryFiles [] ["compile", "--in", "m.json", "--target", "desktop", "--strict"]).code ≠ 0 := by
  obtain ⟨e, he, hnodes⟩ := readExperiment_mystery
  have hlength : e.graph.nodes.length = 3 := by simpa using congrArg List.length hnodes
  obtain ⟨report, hreport⟩ := @Compiler.compileGraph_upTo .desktop e.graph Settings.preset.maxNodes "m" e.properties
    (hlength ▸ by decide)
  let c := Compiler.upTo .desktop Settings.preset.maxNodes
  let job : Job := { name := "m", experiment := e, compilers := [c], output := ".", files := mysteryFiles }
  have hcompile : c.compile job.name job.experiment = .ok report := hreport
  have hprepare : prepare mysteryFiles Settings.preset desktopOptions = .ok job := by
    have hopen : openInput mysteryFiles desktopOptions.input = .ok e := openInput_eq_ok_iff.2 he
    rw [prepare, hopen]
    rfl
  have hwrites : ∀ path cause, (compileEach job job.compilers job.begun).2 ≠ some (.unwritten path cause) := by
    have hpath : job.path report.target = "./m.py" := by
      rw [Compiler.target_of_compile hcompile]
      change Path.join "." (Identifier.sanitize "m" ++ "." ++ Target.desktop.extension) = "./m.py"
      decide +kernel
    have hwrite : job.begun.files.write (job.path report.target) report.source.toUTF8 = .ok _ :=
      hpath ▸ write_beside (Json.text mystery.toJson).toUTF8 report.source.toUTF8
    have hend : (compileEach job job.compilers job.begun).2 = none := by
      rw [compileEach, compileOne_of_write hcompile hwrite]
      rfl
    intro path cause h
    cases hend.symm.trans h
  have hread : read ["compile", "--in", "m.json", "--target", "desktop"] = .run none (.compile desktopOptions) := by
    decide +kernel
  obtain ⟨reports, failure, hcompletes, -, hstricter⟩ :=
    completes_run hread rfl (load_preset mysteryFiles) hprepare hwrites
  obtain ⟨rfl, rfl⟩ : reports = [report] ∧ failure = none := by
    cases hcompletes.compiles with
    | failed _ h => cases h.symm.trans hcompile
    | next h hrest =>
      cases hrest
      cases h.symm.trans hcompile
      exact ⟨rfl, rfl⟩
  have hstrict := hstricter (by decide)
  have hunknowns : report.unknowns = (skipped e).map Node.unknownType := by
    rw [Compiler.unknowns_eq hreport, skipped_eq_unknown (Compiler.upTo_palette Settings.preset.maxNodes)]
  have hfound : ∃ r ∈ [report], r.findings ≠ [] := by
    refine ⟨report, List.mem_singleton_self report, fun hnone => ?_⟩
    rw [skipped_mystery hnodes, Report.unknowns, hnone] at hunknowns
    cases hunknowns
  exact ⟨job, report, hcompletes, hstrict, hcompletes.code, hstrict.code.2 (.inr hfound)⟩

end CommandLine

end FlowScript
