/-
What writing changes. Seen from outside, a place in a file system has nothing,
a directory or a file with its content (`FileSystem.entryAt?`). Creating
directories adds directories and nothing else (`grows_makeDirs`), and
writing a file changes one place, which is where the path leads
(`overwrites_of_write`). A path that led somewhere before still leads there.
-/
import FlowScript.Dict
import FlowScript.Files.Tree
import FlowScript.Proofs.Results
import Mathlib.Data.List.Infix

namespace FlowScript

/-- What stands at a place, without what a directory holds. -/
inductive Entry where
  | directory
  | file (content : ByteArray)

namespace FileTree

def entry : FileTree → Entry
  | .file content => .file content
  | .dir _ => .directory

variable {tree t : FileTree} {entries : List (String × FileTree)} {parent : List String} {name : String}

/-! ## Entries of directories -/

theorem lookup_cons (name : String) (t : FileTree) (entries : List (String × FileTree)) (n : String) :
    ((name, t) :: entries).lookup n = if n = name then some t else entries.lookup n :=
  Dict.get?_cons name t entries n

theorem lookup_setEntry (entries : List (String × FileTree)) (name : String) (tree : FileTree) (n : String) :
    (setEntry entries name tree).lookup n = if n = name then some tree else entries.lookup n := by
  induction entries with
  | nil => exact lookup_cons name tree [] n
  | cons e entries ih =>
    rw [setEntry]
    split
    next he =>
      subst he
      rw [lookup_cons, lookup_cons]
      split <;> rfl
    next he =>
      rw [lookup_cons, lookup_cons, ih]
      by_cases h : n = e.1
      · rw [if_pos h, if_neg (h ▸ he), if_pos h]
      · rw [if_neg h, if_neg h]

/-- An entry in place of itself changes nothing. -/
theorem setEntry_of_lookup (h : entries.lookup name = some t) : setEntry entries name t = entries := by
  induction entries with
  | nil => cases h
  | cons e entries ih =>
    rw [lookup_cons] at h
    rw [setEntry]
    split
    next he =>
      rw [if_pos he.symm] at h
      cases h
      rfl
    next he =>
      rw [if_neg (Ne.symm he)] at h
      rw [ih h]

/-! ## Putting a tree at a place -/

theorem find?_dir (entries : List (String × FileTree)) (name : String) (place : List String) :
    (FileTree.dir entries).find? (name :: place) = (entries.lookup name).bind fun t => t.find? place := by
  rw [find?]

theorem find?_append (t : FileTree) (place rest : List String) :
    t.find? (place ++ rest) = (t.find? place).bind fun t => t.find? rest := by
  induction place generalizing t with
  | nil => rfl
  | cons name place ih =>
    cases t with
    | file content => rfl
    | dir entries =>
      rw [List.cons_append, find?_dir, find?_dir, Option.bind_assoc]
      exact congrArg _ (funext ih)

theorem find?_append_singleton (h : t.find? parent = some (.dir entries)) (name : String) :
    t.find? (parent ++ [name]) = entries.lookup name := by
  rw [find?_append, h, Option.bind_some, find?_dir]
  cases entries.lookup name <;> rfl

/-- Below a directory that exists, a tree takes the place of what was there,
and nothing else is seen to change. -/
theorem entry_put (hparent : t.find? parent = some (.dir entries)) (q : List String) :
    ((put tree (parent ++ [name]) t).find? q).map entry =
      if parent ++ [name] <+: q then (tree.find? (q.drop (parent.length + 1))).map entry
      else (t.find? q).map entry := by
  induction parent generalizing t q with
  | nil =>
    cases hparent
    have hput : put tree ([] ++ [name]) (.dir entries) = .dir (setEntry entries name tree) := by
      rw [List.nil_append, put]
      cases entries.lookup name <;> rfl
    rw [hput]
    cases q with
    | nil => simp [find?, entry]
    | cons n q =>
      rw [find?_dir, find?_dir, lookup_setEntry]
      by_cases hn : n = name
      · simp [hn]
      · have hname : name ≠ n := Ne.symm hn
        simp [hn, hname]
  | cons m parent ih =>
    cases t with
    | file content => cases hparent
    | dir es =>
      rw [find?_dir] at hparent
      obtain ⟨t, ht, hbelow⟩ := Option.bind_eq_some_iff.1 hparent
      have hput : put tree (m :: parent ++ [name]) (.dir es) =
          .dir (setEntry es m (put tree (parent ++ [name]) t)) := by
        rw [List.cons_append, put, ht]
      rw [hput]
      cases q with
      | nil => simp [find?, entry]
      | cons n q =>
        rw [find?_dir, find?_dir, lookup_setEntry]
        by_cases hn : n = m
        · subst hn
          simp [ht, ih hbelow]
        · have hm : m ≠ n := Ne.symm hn
          simp [hn, hm]

/-- Without a directory to be put into, nothing happens. -/
theorem put_of_missing (hparent : ∀ entries, t.find? parent ≠ some (.dir entries)) :
    put tree (parent ++ [name]) t = t := by
  induction parent generalizing t with
  | nil =>
    cases t with
    | file content => rfl
    | dir entries => exact absurd rfl (hparent entries)
  | cons m parent ih =>
    cases t with
    | file content => rfl
    | dir es =>
      rw [List.cons_append, put]
      cases ht : es.lookup m with
      | none => simp
      | some t =>
        have hrest : ∀ entries, t.find? parent ≠ some (.dir entries) := by
          intro entries h
          refine hparent entries ?_
          rw [find?_dir, ht]
          exact h
        simp only [ih hrest]
        rw [setEntry_of_lookup ht]

end FileTree

namespace FileSystem

/-- What stands at a place, if there is anything. -/
def entryAt? (fs : FileSystem) (place : List String) : Option Entry := (fs.root.find? place).map FileTree.entry

variable {fs fs' : FileSystem} {place parent : List String} {name path : String} {content : ByteArray}

/-! ## Walks -/

theorem entryAt?_eq_directory_iff :
    fs.entryAt? place = some .directory ↔ ∃ entries, fs.root.find? place = some (.dir entries) := by
  rw [entryAt?, Option.map_eq_some_iff]
  constructor
  · intro h
    obtain ⟨t, ht, hentry⟩ := h
    cases t with
    | file content => cases hentry
    | dir entries => exact ⟨entries, ht⟩
  · intro h
    obtain ⟨entries, ht⟩ := h
    exact ⟨_, ht, rfl⟩

theorem entryAt?_eq_file_iff :
    fs.entryAt? place = some (.file content) ↔ fs.root.find? place = some (.file content) := by
  rw [entryAt?, Option.map_eq_some_iff]
  constructor
  · intro h
    obtain ⟨t, ht, hentry⟩ := h
    cases t with
    | file content => cases hentry; exact ht
    | dir entries => cases hentry
  · intro h
    exact ⟨_, h, rfl⟩

/-- What a walk meets with at its first step. -/
theorem walk_cons (fs : FileSystem) (place : List String) (step : String) (steps : List String) :
    fs.walk place (step :: steps) =
      match fs.entryAt? place with
      | some .directory =>
        if step = "." then fs.walk place steps
        else if step = ".." then fs.walk place.dropLast steps
        else if nameLimit < step.utf8ByteSize then .error .nameTooLong
        else if (fs.entryAt? (place ++ [step])).isSome then fs.walk (place ++ [step]) steps
        else .error .notFound
      | some (.file _) => .error .notDirectory
      | none => .error .notFound := by
  rw [walk, entryAt?]
  cases ht : fs.root.find? place with
  | none => rfl
  | some t =>
    cases t with
    | file content => rfl
    | dir entries =>
      have hnext : (fs.entryAt? (place ++ [step])).isSome = (entries.lookup step).isSome := by
        rw [entryAt?, FileTree.find?_append_singleton ht, Option.isSome_map]
      simp only [Option.map_some, FileTree.entry, hnext]

theorem walk_append (fs : FileSystem) (place steps rest : List String) :
    fs.walk place (steps ++ rest) = fs.walk place steps >>= fun goal => fs.walk goal rest := by
  induction steps generalizing place with
  | nil => rfl
  | cons step steps ih =>
    rw [List.cons_append, walk_cons, walk_cons]
    cases fs.entryAt? place with
    | none => rfl
    | some e =>
      cases e with
      | file content => rfl
      | directory =>
        simp only [ih]
        split_ifs <;> rfl

/-- A walk to a directory starts at one. -/
theorem directory_of_walk {steps : List String} {goal : List String} (h : fs.walk place steps = .ok goal)
    (hgoal : fs.entryAt? goal = some .directory) : fs.entryAt? place = some .directory := by
  cases steps with
  | nil =>
    cases h
    exact hgoal
  | cons step steps =>
    rw [walk_cons] at h
    split at h
    next hplace => exact hplace
    next => cases h
    next => cases h

/-- A walk to a directory leads there as long as no directory is taken away. -/
theorem walk_of_directories (hkept : ∀ q, fs.entryAt? q = some .directory → fs'.entryAt? q = some .directory)
    {steps : List String} {goal : List String} (h : fs.walk place steps = .ok goal)
    (hgoal : fs.entryAt? goal = some .directory) : fs'.walk place steps = .ok goal := by
  induction steps generalizing place with
  | nil => exact h
  | cons step steps ih =>
    have hplace := directory_of_walk h hgoal
    rw [walk_cons, hplace] at h
    rw [walk_cons, hkept place hplace]
    dsimp only at h ⊢
    split at h
    next hdot => rw [if_pos hdot, ih h]
    next hdot =>
    rw [if_neg hdot]
    split at h
    next hdots => rw [if_pos hdots, ih h]
    next hdots =>
    rw [if_neg hdots]
    split at h
    next => cases h
    next hlong =>
    rw [if_neg hlong]
    split at h
    next =>
      rw [hkept _ (directory_of_walk h hgoal), ih h]
      rfl
    next => cases h

/-! ## Writing -/

/-- One state of a file system is the other but for a file with its content. -/
structure Overwrites (fs fs' : FileSystem) (place : List String) (content : ByteArray) : Prop where
  current : fs'.current = fs.current
  written : fs'.entryAt? place = some (.file content)
  kept : ∀ q, q ≠ place → fs'.entryAt? q = fs.entryAt? q

theorem entryAt?_put {entries : List (String × FileTree)} (hparent : fs.root.find? parent = some (.dir entries))
    (tree : FileTree) (q : List String) :
    (fs.put (parent ++ [name]) tree).entryAt? q =
      if parent ++ [name] <+: q then (tree.find? (q.drop (parent.length + 1))).map FileTree.entry
      else fs.entryAt? q :=
  FileTree.entry_put hparent q

/-- A file takes the place of a file or of nothing. -/
theorem overwrites_put (hparent : fs.entryAt? parent = some .directory)
    (hplace : fs.entryAt? (parent ++ [name]) ≠ some .directory) :
    Overwrites fs (fs.put (parent ++ [name]) (.file content)) (parent ++ [name]) content := by
  obtain ⟨entries, hentries⟩ := entryAt?_eq_directory_iff.1 hparent
  refine ⟨rfl, ?_, ?_⟩
  · rw [entryAt?_put hentries, if_pos (List.prefix_refl _), List.drop_of_length_le (by simp)]
    rfl
  · intro q hq
    rw [entryAt?_put hentries]
    split
    next hprefix =>
      obtain ⟨rest, rfl⟩ := hprefix
      cases rest with
      | nil => exact absurd (List.append_nil _) hq
      | cons n rest =>
        -- below a file there was nothing and is nothing
        have hdrop : (parent ++ [name] ++ n :: rest).drop (parent.length + 1) = n :: rest := by
          rw [List.drop_left' (by simp)]
        rw [hdrop, entryAt?, FileTree.find?_append]
        cases ht : fs.root.find? (parent ++ [name]) with
        | none => rfl
        | some t =>
          cases t with
          | file content => rfl
          | dir entries => exact absurd (entryAt?_eq_directory_iff.2 ⟨entries, ht⟩) hplace
    next => rfl

/-- A name that a file can have. -/
structure IsFileName (name : String) : Prop where
  notDot : name ≠ "."
  notDots : name ≠ ".."
  short : name.utf8ByteSize ≤ nameLimit

/-- A path leads to a name in a directory, which a file has or can have. -/
structure Leads (fs : FileSystem) (path : String) (parent : List String) (name : String) : Prop where
  walks : ∃ before, Path.steps path = before ++ [name] ∧ fs.walk (fs.start path) before = .ok parent
  directory : fs.entryAt? parent = some .directory
  isFileName : IsFileName name
  free : fs.entryAt? (parent ++ [name]) ≠ some .directory

/-- A file is written where the path leads to. -/
theorem overwrites_of_write (h : fs.write path content = .ok fs') :
    ∃ parent name, Leads fs path parent name ∧ Overwrites fs fs' (parent ++ [name]) content := by
  rw [write] at h
  split at h
  next => cases h
  next name hlast =>
    obtain ⟨before, hsteps⟩ := List.getLast?_eq_some_iff.1 hlast
    rw [hsteps, List.dropLast_concat] at h
    obtain ⟨parent, hwalk, h⟩ := bind_eq_ok_iff.1 h
    split at h
    next entries hparent =>
      have hdirectory := entryAt?_eq_directory_iff.2 ⟨entries, hparent⟩
      split at h
      next => cases h
      next hdots =>
      split at h
      next => cases h
      next hlong =>
      have hname : IsFileName name := ⟨fun hd => hdots (.inl hd), fun hd => hdots (.inr hd), Nat.not_lt.1 hlong⟩
      split at h
      next => cases h
      next hplace =>
        cases h
        have hfree : fs.entryAt? (parent ++ [name]) ≠ some .directory := by
          intro hd
          obtain ⟨below, hbelow⟩ := entryAt?_eq_directory_iff.1 hd
          exact hplace below ((FileTree.find?_append_singleton hparent name).symm.trans hbelow)
        exact ⟨parent, name, ⟨⟨before, hsteps, hwalk⟩, hdirectory, hname, hfree⟩, overwrites_put hdirectory hfree⟩
    next => cases h
    next => cases h

/-- Writing neither creates nor removes directories. -/
theorem Overwrites.directory_iff (h : Overwrites fs fs' place content) (hfree : fs.entryAt? place ≠ some .directory)
    (q : List String) : fs'.entryAt? q = some .directory ↔ fs.entryAt? q = some .directory := by
  by_cases hq : q = place
  · subst hq
    rw [h.written]
    exact iff_of_false nofun hfree
  · rw [h.kept q hq]

/-- Where a path leads to depends on the directories only. -/
theorem Leads.of_directories (h : Leads fs path parent name) (hcurrent : fs'.current = fs.current)
    (hsame : ∀ q, fs'.entryAt? q = some .directory ↔ fs.entryAt? q = some .directory) :
    Leads fs' path parent name := by
  obtain ⟨before, hsteps, hwalk⟩ := h.walks
  have hstart : fs'.start path = fs.start path := by rw [start, start, hcurrent]
  refine ⟨⟨before, hsteps, ?_⟩, (hsame _).2 h.directory, h.isFileName, mt (hsame _).1 h.free⟩
  rw [hstart]
  exact walk_of_directories (fun q => (hsame q).2) hwalk h.directory

/-- What stands where a path leads to is what the path opens. -/
theorem Leads.open?_eq (h : Leads fs path parent name) (hplace : fs.entryAt? (parent ++ [name]) = some (.file content)) :
    fs.open? path = .ok (.file content) := by
  obtain ⟨before, hsteps, hwalk⟩ := h.walks
  have hpath : path ≠ "" := by
    intro hempty
    have hnone : Path.steps "" = [] := by decide
    rw [hempty, hnone] at hsteps
    exact List.append_ne_nil_of_right_ne_nil _ (List.cons_ne_nil _ _) hsteps.symm
  have hlast : fs.walk parent [name] = .ok (parent ++ [name]) := by
    rw [walk_cons, h.directory]
    simp [h.isFileName.notDot, h.isFileName.notDots, Nat.not_lt.2 h.isFileName.short, hplace, FileSystem.walk]
  have hresolve : fs.resolve path = .ok (parent ++ [name]) := by
    rw [resolve, if_neg (by simpa using hpath), hsteps, walk_append, hwalk]
    exact hlast
  rw [open?]
  refine bind_eq_ok_iff.2 ⟨_, hresolve, ?_⟩
  rw [entryAt?_eq_file_iff.1 hplace]
  rfl

/-! ## Creating directories -/

/-- One state of a file system is the other but for directories where there was nothing. -/
structure Grows (fs fs' : FileSystem) : Prop where
  current : fs'.current = fs.current
  entries : ∀ q, fs'.entryAt? q = fs.entryAt? q ∨ fs.entryAt? q = none ∧ fs'.entryAt? q = some .directory

theorem Grows.refl (fs : FileSystem) : Grows fs fs := ⟨rfl, fun _ => .inl rfl⟩

theorem Grows.trans {fs'' : FileSystem} (h : Grows fs fs') (h' : Grows fs' fs'') : Grows fs fs'' := by
  refine ⟨h'.current.trans h.current, fun q => ?_⟩
  rcases h.entries q with hq | ⟨hnone, hq⟩
  · rcases h'.entries q with hq' | ⟨hnone', hq'⟩
    · exact .inl (hq'.trans hq)
    · exact .inr ⟨hq ▸ hnone', hq'⟩
  · rcases h'.entries q with hq' | ⟨hnone', -⟩
    · exact .inr ⟨hnone, hq'.trans hq⟩
    · cases hnone'.symm.trans hq

/-- A missing directory is created where a walk would go on. -/
theorem grows_put {step : String} (h : fs.walk place [step] = .error .notFound) :
    Grows fs (fs.put (place ++ [step]) (.dir [])) := by
  by_cases hplace : ∃ entries, fs.root.find? place = some (.dir entries)
  · obtain ⟨entries, hentries⟩ := hplace
    have hmissing : fs.entryAt? (place ++ [step]) = none := by
      rw [walk_cons, entryAt?_eq_directory_iff.2 ⟨entries, hentries⟩] at h
      simp only [FileSystem.walk] at h
      split_ifs at h
      next => cases h
      next hsome => exact Option.not_isSome_iff_eq_none.1 hsome
    refine ⟨rfl, fun q => ?_⟩
    rw [entryAt?_put hentries]
    split
    next hprefix =>
      obtain ⟨rest, rfl⟩ := hprefix
      have hbefore : fs.entryAt? (place ++ [step] ++ rest) = none := by
        rw [entryAt?, Option.map_eq_none_iff] at hmissing ⊢
        rw [FileTree.find?_append, hmissing, Option.bind_none]
      rw [List.drop_left' (by simp), hbefore]
      cases rest with
      | nil => exact .inr ⟨rfl, rfl⟩
      | cons n rest => exact .inl rfl
    next => exact .inl rfl
  · have hput : fs.put (place ++ [step]) (.dir []) = fs := by
      have hroot : FileTree.put (.dir []) (place ++ [step]) fs.root = fs.root :=
        FileTree.put_of_missing fun entries hentries => hplace ⟨entries, hentries⟩
      rw [put, hroot]
    rw [hput]
    exact .refl fs

theorem grows_makeSteps {steps : List String} (h : fs.makeSteps place steps = .ok fs') : Grows fs fs' := by
  induction steps generalizing fs place with
  | nil =>
    cases h
    exact .refl _
  | cons step steps ih =>
    rw [makeSteps] at h
    split at h
    next next hnext =>
      split at h
      next => cases h
      next => exact ih h
    next hmissing =>
      split at h
      next => cases h
      next => exact (grows_put hmissing).trans (ih h)
    next => cases h

/-- Creating directories changes no file and takes nothing away. -/
theorem grows_makeDirs (h : fs.makeDirs path = .ok fs') : Grows fs fs' := grows_makeSteps h

end FileSystem

/-! ## Names in directories -/

namespace Path

theorem names_append_slash (s t : String) : names (s ++ "/" ++ t) = names s ++ names t := by
  have hslash : "/" = String.singleton '/' := rfl
  rw [names, hslash, Text.splitAt_append_singleton, List.filter_append]
  rfl

theorem names_of_slash_free {s : String} (hs : s ≠ "") (hslash : '/' ∉ s.toList) : names s = [s] := by
  rw [names, Text.splitAt_eq_singleton hslash]
  simp [hs]

theorem isAbsolute_append {s : String} (hs : s ≠ "") (t : String) : isAbsolute (s ++ t) = isAbsolute s := by
  have hne : s.toList ≠ [] := by simpa using hs
  rw [isAbsolute, isAbsolute, String.toList_append, List.head?_append_of_ne_nil _ hne]

theorem isAbsolute_of_slash_free {s : String} (hslash : '/' ∉ s.toList) : isAbsolute s = false := by
  rw [isAbsolute]
  cases hchars : s.toList with
  | nil => rfl
  | cons c cs =>
    have hc : c ≠ '/' := by
      intro hc
      rw [hchars, hc] at hslash
      exact hslash List.mem_cons_self
    simpa using hc

/-- A name is put behind a slash, and the slash behind the directory if it is not there. -/
theorem join_cases (dir : String) {name : String} (hslash : '/' ∉ name.toList) :
    (dir = "" ∧ join dir name = name) ∨
      ∃ before, (dir = before ∧ dir ≠ "" ∨ dir = before ++ "/") ∧ join dir name = before ++ "/" ++ name := by
  have hrelative := isAbsolute_of_slash_free hslash
  by_cases hdir : dir = ""
  · exact .inl ⟨hdir, by simp [join, hdir]⟩
  refine .inr ?_
  by_cases hends : dir.toList.getLast? = some '/'
  · obtain ⟨cs, hcs⟩ := List.getLast?_eq_some_iff.1 hends
    have hbefore : dir = String.ofList cs ++ "/" := by
      apply String.toList_inj.1
      simpa using hcs
    refine ⟨String.ofList cs, .inr hbefore, ?_⟩
    rw [← hbefore]
    simp [join, hrelative, hdir, hends]
  · exact ⟨dir, .inl ⟨rfl, hdir⟩, by simp [join, hrelative, hdir, hends]⟩

theorem names_append_empty (s : String) : names (s ++ "/") = names s := by
  have h := names_append_slash s ""
  rwa [String.append_empty, show names "" = [] from rfl, List.append_nil] at h

/-- A name in a directory is reached by the names of the directory. -/
theorem steps_join (dir : String) {name : String} (hname : name ≠ "") (hslash : '/' ∉ name.toList) :
    steps (join dir name) = names dir ++ [name] := by
  have hne : name.toList ≠ [] := by simpa using hname
  have hends : ∀ before : String, (before ++ name).toList.getLast? ≠ some '/' := by
    intro before h
    rw [String.toList_append, List.getLast?_append_of_ne_nil _ hne] at h
    exact hslash (List.mem_of_getLast? h)
  have hsteps : ∀ before : String, steps (before ++ name) = names (before ++ name) := by
    intro before
    rw [steps, if_neg (by simpa using hends before)]
  rcases join_cases dir hslash with ⟨rfl, hjoin⟩ | ⟨before, hdir, hjoin⟩
  · have h := hsteps ""
    rw [String.empty_append] at h
    rw [hjoin, h, names_of_slash_free hname hslash]
    rfl
  · have hnames : names dir = names before := by
      rcases hdir with ⟨rfl, -⟩ | rfl
      · rfl
      · exact names_append_empty before
    rw [hjoin, hsteps, names_append_slash, names_of_slash_free hname hslash, hnames]

theorem isAbsolute_join (dir : String) {name : String} (hslash : '/' ∉ name.toList) :
    isAbsolute (join dir name) = isAbsolute dir := by
  rcases join_cases dir hslash with ⟨rfl, hjoin⟩ | ⟨before, hdir, hjoin⟩
  · rw [hjoin, isAbsolute_of_slash_free hslash]
    rfl
  · rw [hjoin]
    rcases hdir with ⟨rfl, hne⟩ | rfl
    · rw [String.append_assoc, isAbsolute_append hne]
    · exact isAbsolute_append (by simp) name

end Path

end FlowScript
