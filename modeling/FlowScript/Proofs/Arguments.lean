/-
Arguments that follow others. Options are read from left to right up to the
first argument that is none, so what comes last is read after all that stands
before it (`readOptions_append`); a command whose last argument makes it strict
is the command before that argument, made strict (`read_append_strict`).
-/
import FlowScript.CommandLine.Arguments
import Mathlib.Data.List.Infix

namespace FlowScript

namespace CommandLine

variable {place : Place} {values values' : Values} {args rest : List String}

/-- What follows the options ends the arguments. -/
theorem suffix_of_readOptions (h : readOptions place values args = .values values' rest) : rest <:+ args := by
  fun_induction readOptions place values args
  all_goals try cases h
  case case1.refl => exact List.suffix_refl _
  case case2.refl => exact List.nil_suffix
  case case9 ih => exact (ih h).trans (List.suffix_cons _ _)
  case case10 ih => exact (ih h).trans (List.suffix_cons _ _)
  case case14 ih => exact ((ih h).trans (List.suffix_cons _ _)).trans (List.suffix_cons _ _)
  case case18.refl => exact List.suffix_refl _

theorem getLast?_ne_of_cons {arg last : String} (h : (arg :: args).getLast? ≠ some last) : args.getLast? ≠ some last := by
  intro hlast
  rw [List.getLast?_cons, hlast] at h
  exact h rfl

/-- Arguments that follow options are read after them. -/
theorem readOptions_append (h : readOptions place values args = .values values' rest)
    (hlast : args.getLast? ≠ some "--") (more : List String) :
    readOptions place values (args ++ more) =
      if rest = [] then readOptions place values' more else .values values' (rest ++ more) := by
  -- a mistake is no reading, so what is left is an end or an option, with or without a value of its own
  fun_induction readOptions place values args
  all_goals try cases h
  case case1.refl => rfl
  case case2.refl hdashes hempty =>
    rw [List.isEmpty_iff.1 hempty] at hlast
    exact absurd (congrArg some (String.toList_inj.1 hdashes)) hlast
  case case18.refl arg args _ _ _ =>
    rw [List.cons_append, readOptions.eq_def]
    simp_all
  case case9 ih =>
    rw [List.cons_append, readOptions.eq_def, ← ih h (getLast?_ne_of_cons hlast)]
    simp_all +zetaDelta
  case case10 ih =>
    rw [List.cons_append, readOptions.eq_def, ← ih h (getLast?_ne_of_cons hlast)]
    simp_all +zetaDelta
  case case14 ih =>
    rw [List.cons_append, readOptions.eq_def, ← ih h (getLast?_ne_of_cons (getLast?_ne_of_cons hlast))]
    simp_all +zetaDelta

theorem readOptions_strict (h : values.lookup .strict = none) :
    readOptions .compile values ["--strict"] = .values (values ++ [(.strict, "")]) [] := by
  have hchars : "--strict".toList = ['-', '-', 's', 't', 'r', 'i', 'c', 't'] := by decide +kernel
  have hword : String.ofList ['s', 't', 'r', 'i', 'c', 't'] = "strict" := by decide +kernel
  rw [readOptions, hchars]
  simp [hword, Place.options, Flag.word, Flag.hasValue, h, readOptions]

theorem lookup_append_strict (values : Values) {flag : Flag} (h : flag ≠ .strict) :
    (values ++ [(Flag.strict, "")]).lookup flag = values.lookup flag := by
  have hb : (flag == Flag.strict) = false := beq_false_of_ne h
  rw [List.lookup_append, List.lookup_cons, hb, List.lookup_nil, Option.or_none]

/-- The option that makes a compilation strict changes nothing else about it. -/
theorem compileOf?_append_strict {options : CompileOptions} (h : compileOf? values = some (.compile options))
    (hplain : options.strict = false) :
    values.lookup .strict = none ∧
      compileOf? (values ++ [(.strict, "")]) = some (.compile { options with strict := true }) := by
  obtain ⟨input, hinput, heq⟩ := Option.map_eq_some_iff.1 h
  cases heq
  have hnone : values.lookup .strict = none := by simpa using hplain
  refine ⟨hnone, ?_⟩
  have hstrict : (values ++ [(Flag.strict, "")]).lookup .strict = some "" := by
    rw [List.lookup_append, hnone]
    rfl
  simp (disch := decide) only [compileOf?, lookup_append_strict, hinput, hstrict, Option.map_some, Option.isSome_some]

/-- Options alone are no command. -/
theorem readOptions_ne_run (place : Place) (values : Values) (args : List String) (config : Option String)
    (command : Command) : readOptions place values args ≠ .done (.run config command) := by
  fun_induction readOptions place values args
  all_goals simp_all
  all_goals split <;> simp

theorem readHelp_ne_run (args : List String) (config : Option String) (command : Command) :
    readHelp args ≠ .run config command := by
  unfold readHelp
  split <;> simp

theorem readCommand_eq_run_iff {command? : Values → Option Command} {config config' : Option String}
    {command : Command} :
    readCommand place config command? args = .run config' command ↔
      ∃ values, readOptions place [] args = .values values [] ∧ command? values = some command ∧
        config' = (values.lookup .config).or config := by
  rw [readCommand]
  cases ho : readOptions place [] args with
  | done request =>
    refine iff_of_false (fun h => readOptions_ne_run place [] args config' command (h ▸ ho)) ?_
    simp
  | values values rest =>
    cases rest with
    | cons arg rest => simp
    | nil =>
      cases hc : command? values with
      | none => simp [hc]
      | some c => simp [hc, eq_comm, and_comm]

/-- One more argument makes a compilation strict, unless the last was two dashes and nothing more. -/
theorem read_append_strict {config : Option String} {options : CompileOptions}
    (h : read args = .run config (.compile options)) (hplain : options.strict = false)
    (hlast : args.getLast? ≠ some "--") :
    read (args ++ ["--strict"]) = .run config (.compile { options with strict := true }) := by
  rw [read] at h
  cases ho : readOptions .program [] args with
  | done request =>
    rw [ho] at h
    exact absurd (h ▸ ho) (readOptions_ne_run .program [] args config (.compile options))
  | values values rest =>
    rw [ho] at h
    cases rest with
    | nil => cases h
    | cons command rest =>
      have hrest : rest.getLast? ≠ some "--" := by
        obtain ⟨front, rfl⟩ := suffix_of_readOptions ho
        rw [List.getLast?_append_of_ne_nil _ (List.cons_ne_nil _ _)] at hlast
        exact getLast?_ne_of_cons hlast
      dsimp only at h
      split at h
      next hcommand =>
        obtain ⟨found, hfound, hcompile, hconfig⟩ := readCommand_eq_run_iff.1 h
        obtain ⟨hnone, hstrict⟩ := compileOf?_append_strict hcompile hplain
        rw [read, readOptions_append ho hlast, if_neg (List.cons_ne_nil _ _)]
        refine (if_pos hcommand).trans (readCommand_eq_run_iff.2 ⟨found ++ [(.strict, "")], ?_, hstrict, ?_⟩)
        · change readOptions .compile [] (rest ++ ["--strict"]) = _
          rw [readOptions_append hfound hrest, if_pos rfl, readOptions_strict hnone]
        · rw [hconfig, lookup_append_strict found (by decide)]
      next =>
      split at h
      next =>
        obtain ⟨found, -, hcheck, -⟩ := readCommand_eq_run_iff.1 h
        obtain ⟨input, -, hinput⟩ := Option.map_eq_some_iff.1 hcheck
        cases hinput
      next =>
      split at h
      next => exact absurd h (readHelp_ne_run rest config _)
      next => cases h

end CommandLine

end FlowScript
