/-
The templates of a directory. Every file whose name has the ending of
templates is one, at any depth and under any directory; it is named by its
path without the ending and holds what the file holds (`Holds`). A set of
templates is loaded if all these files are texts, and else the first of them
that is not is reported, first by the names on the way to it. Nothing else in
the directory matters, nor the order in which it is listed
(`loading_of_directory`).
-/
import FlowScript.Program.Compiler
import FlowScript.Proofs.Directories
import FlowScript.Proofs.Results

namespace FlowScript.Template

/-- A template file of a tree: a file whose own name has the ending. -/
structure IsTemplate (tree : FileTree) (place : List String) (content : ByteArray) : Prop where
  file : tree.HasFile place content
  named : ∃ stem, place.getLast? = some (stem ++ ending)

/-- The first place in a tree that has a template file which is no text. -/
structure FirstUnreadable (tree : FileTree) (place : List String) : Prop where
  unreadable : ∃ content, IsTemplate tree place content ∧ ¬ content.IsValidUTF8
  first : ∀ other content, IsTemplate tree other content → ¬ content.IsValidUTF8 → place = other ∨ place < other

/-- A set of templates has the template files of a tree, each by its path
without the ending, and nothing else. -/
structure Holds (tree : FileTree) (c : Collection) : Prop where
  get?_iff : ∀ name t, c.get? name = some t ↔
    t.name = name ∧ ∃ place, IsTemplate tree place t.source.toUTF8 ∧ joined place = name ++ ending
  length_eq : ∃ places : List (List String), places.Nodup ∧
    (∀ place, place ∈ places ↔ ∃ content, IsTemplate tree place content) ∧ c.sources.length = places.length

/-! ## Names -/

theorem append_inj_right {s t u : String} (h : s ++ u = t ++ u) : s = t := by
  have hchars := congrArg String.toList h
  rw [String.toList_append, String.toList_append, List.append_left_inj, String.toList_inj] at hchars
  exact hchars

/-- The ending has no slash, so it is all in what follows a slash. -/
theorem ends_append_slash_iff {before last : String} :
    (∃ name, before ++ "/" ++ last = name ++ ending) ↔ ∃ stem, last = stem ++ ending := by
  constructor
  · intro h
    obtain ⟨name, hname⟩ := h
    have hchars : before.toList ++ '/' :: last.toList = name.toList ++ ending.toList := by
      have hlist := congrArg String.toList hname
      simpa using hlist
    have hlast : '/' :: last.toList <:+ before.toList ++ '/' :: last.toList := List.suffix_append _ _
    have hending : ending.toList <:+ before.toList ++ '/' :: last.toList := hchars ▸ List.suffix_append _ _
    by_cases hlength : ending.toList.length ≤ last.toList.length
    · obtain ⟨stem, hstem⟩ := List.suffix_of_suffix_length_le hending ((List.suffix_cons ..).trans hlast) hlength
      refine ⟨String.ofList stem, String.toList_inj.1 ?_⟩
      rw [String.toList_append, String.toList_ofList, hstem]
    · have hshort := List.suffix_of_suffix_length_le hlast hending (by simp; omega)
      exact absurd (hshort.subset List.mem_cons_self) (by decide)
  · intro h
    obtain ⟨stem, rfl⟩ := h
    exact ⟨before ++ "/" ++ stem, by simp [String.append_assoc]⟩

/-- A path ends as the last name of the place does. -/
theorem ends_joined_iff {place : List String} :
    (∃ name, joined place = name ++ ending) ↔ ∃ stem, place.getLast? = some (stem ++ ending) := by
  rcases List.eq_nil_or_concat place with rfl | ⟨before, last, rfl⟩
  · have hempty : ∀ name, joined [] ≠ name ++ ending := by
      intro name hname
      have hlength := congrArg (fun s => s.toList.length) hname
      simp [joined, ending] at hlength
    simp [hempty]
  · rw [List.concat_eq_append, List.getLast?_concat]
    simp only [Option.some.injEq]
    by_cases hbefore : before = []
    · simp [hbefore, joined]
    · have hjoined : joined (before ++ [last]) = joined before ++ "/" ++ last := by
        simp [joined, String.intercalate_append_of_ne_nil hbefore]
      rw [hjoined]
      exact ends_append_slash_iff

/-! ## Template files -/

/-- The template files that the walk through a tree comes by. -/
def templateWalk (tree : FileTree) : List (List String × ByteArray) :=
  tree.walk.filter fun p => (Text.dropEnding? ending (joined p.1)).isSome

/-- The name of the template at a place. -/
def nameAt (place : List String) : String := (Text.dropEnding? ending (joined place)).getD ""

variable {tree tree' : FileTree} {place place' : List String} {content : ByteArray}

theorem nameAt_eq_iff {name : String} (h : ∃ stem, place.getLast? = some (stem ++ ending)) :
    nameAt place = name ↔ joined place = name ++ ending := by
  obtain ⟨stem, hstem⟩ := ends_joined_iff.2 h
  rw [nameAt, hstem, Text.dropEnding?_append, Option.getD_some]
  exact ⟨fun h => h ▸ rfl, append_inj_right⟩

theorem mem_templateWalk_iff (h : tree.WellFormed) :
    (place, content) ∈ templateWalk tree ↔ IsTemplate tree place content := by
  rw [templateWalk, List.mem_filter, FileTree.mem_walk_iff h, Option.isSome_iff_exists]
  simp only [Text.dropEnding?_eq_some_iff, ends_joined_iff]
  exact ⟨fun h => ⟨h.1, h.2⟩, fun h => ⟨h.file, h.named⟩⟩

theorem pairwise_templateWalk (h : tree.WellFormed) : (templateWalk tree).Pairwise fun a b => a.1 < b.1 :=
  (FileTree.pairwise_walk h).filter _

theorem templateWalk_congr (h : tree.WellFormed) (h' : tree'.WellFormed)
    (hsame : ∀ place content, IsTemplate tree place content ↔ IsTemplate tree' place content) :
    templateWalk tree = templateWalk tree' :=
  FileTree.eq_of_pairwise (pairwise_templateWalk h) (pairwise_templateWalk h') fun p => by
    rw [mem_templateWalk_iff h, mem_templateWalk_iff h', hsame]

/-- A file of a tree as it is read: the name of its template, its path and what it holds. -/
def fileAt (path : String) (p : List String × ByteArray) : String × String × ByteArray :=
  (nameAt p.1, Path.join path (joined p.1), p.2)

theorem templateFiles_eq (h : tree.WellFormed) (path : String) :
    Collection.templateFiles path tree = (templateWalk tree).map (fileAt path) := by
  rw [Collection.templateFiles, FileTree.files_eq h, templateWalk]
  induction tree.walk with
  | nil => rfl
  | cons p ps ih =>
    rw [List.map_cons, List.filterMap_cons, List.filter_cons, ih]
    cases hname : Text.dropEnding? ending (joined p.1) with
    | none => simp [hname]
    | some name => simp [nameAt, fileAt, hname]

/-- Different template files have different names. -/
theorem IsTemplate.eq_of_name (h : tree.WellFormed) {content' : ByteArray} (ht : IsTemplate tree place content)
    (ht' : IsTemplate tree place' content') {name : String} (hname : joined place = name ++ ending)
    (hname' : joined place' = name ++ ending) : place = place' :=
  FileTree.joined_injective (FileTree.isPlace_of_mem_walk h ((FileTree.mem_walk_iff h).2 ht.file))
    (FileTree.isPlace_of_mem_walk h ((FileTree.mem_walk_iff h).2 ht'.file)) (hname.trans hname'.symm)

/-! ## Reading -/

/-- What a file holds as a text; no characters if it is none. -/
def textOf (content : ByteArray) : String := (String.fromUTF8? content).getD ""

theorem toUTF8_textOf (h : content.IsValidUTF8) : (textOf content).toUTF8 = content := by
  simp [textOf, String.fromUTF8?, h, String.fromUTF8]

theorem textOf_toUTF8 (s : String) : textOf s.toUTF8 = s := by
  simp [textOf, String.fromUTF8?, s.isValidUTF8, String.fromUTF8]

/-- The template that a file of a tree is read as. -/
def sourceAt (p : List String × ByteArray) : String × String := (nameAt p.1, textOf p.2)

theorem readFile_of_valid (path : String) {p : List String × ByteArray} (h : p.2.IsValidUTF8) :
    Collection.readFile (fileAt path p) = .ok (sourceAt p) := by
  simp [Collection.readFile, fileAt, sourceAt, textOf, String.fromUTF8?, h]

theorem readFile_of_not_valid (path : String) {p : List String × ByteArray} (h : ¬ p.2.IsValidUTF8) :
    Collection.readFile (fileAt path p) = .error (.notText (Path.join path (joined p.1))) := by
  simp [Collection.readFile, fileAt, String.fromUTF8?, h]

/-- Files that are texts are all read. -/
theorem mapM_readFile (path : String) {ps : List (List String × ByteArray)} (h : ∀ p ∈ ps, p.2.IsValidUTF8) :
    (ps.map (fileAt path)).mapM Collection.readFile = .ok (ps.map sourceAt) := by
  rw [List.mapM_map]
  exact mapM_eq_ok fun p hp => readFile_of_valid path (h p hp)

/-- All template files of a tree are texts. -/
def Readable (tree : FileTree) : Prop := ∀ place content, IsTemplate tree place content → content.IsValidUTF8

theorem FirstUnreadable.not_readable (h : FirstUnreadable tree place) : ¬ Readable tree := by
  obtain ⟨content, htemplate, hnot⟩ := h.unreadable
  exact fun hall => hnot (hall place content htemplate)

theorem FirstUnreadable.unique (h : FirstUnreadable tree place) (h' : FirstUnreadable tree place') :
    place = place' := by
  obtain ⟨content, htemplate, hnot⟩ := h.unreadable
  obtain ⟨content', htemplate', hnot'⟩ := h'.unreadable
  rcases h.first place' content' htemplate' hnot' with heq | hlt
  · exact heq
  · rcases h'.first place content htemplate hnot with heq | hgt
    · exact heq.symm
    · exact absurd hgt (List.lt_asymm hlt)

/-- If not all template files are texts, the walk comes by one first. -/
theorem exists_firstUnreadable (h : tree.WellFormed) (hnot : ¬ Readable tree) :
    ∃ before p after, templateWalk tree = before ++ p :: after ∧ (∀ q ∈ before, q.2.IsValidUTF8) ∧
      ¬ p.2.IsValidUTF8 ∧ FirstUnreadable tree p.1 := by
  have hsome : (templateWalk tree).find? (fun q => !decide q.2.IsValidUTF8) ≠ none := by
    intro hnone
    refine hnot fun place content htemplate => ?_
    have hvalid := List.find?_eq_none.1 hnone _ ((mem_templateWalk_iff h).2 htemplate)
    simpa using hvalid
  obtain ⟨p, hp⟩ := Option.ne_none_iff_exists'.1 hsome
  obtain ⟨hbad, before, after, hwalk, hbefore⟩ := List.find?_eq_some_iff_append.1 hp
  have hbad : ¬ p.2.IsValidUTF8 := by simpa using hbad
  have hbefore : ∀ q ∈ before, q.2.IsValidUTF8 := by simpa using hbefore
  have hmem : IsTemplate tree p.1 p.2 := (mem_templateWalk_iff h).1 (by simp [hwalk])
  refine ⟨before, p, after, hwalk, hbefore, hbad, ⟨p.2, hmem, hbad⟩, fun other content htemplate hother => ?_⟩
  have hsorted := pairwise_templateWalk h
  have hin := (mem_templateWalk_iff h).2 htemplate
  rw [hwalk] at hsorted hin
  rcases List.mem_append.1 hin with hin | hin
  · exact absurd (hbefore _ hin) hother
  · rcases List.mem_cons.1 hin with heq | hin
    · exact .inl (heq ▸ rfl)
    · exact .inr (List.rel_of_pairwise_cons (List.pairwise_append.1 hsorted).2.1 hin)

/-! ## Loading -/

/-- A path leads to a directory. -/
structure Opens (fs : FileSystem) (path : String) (tree : FileTree) : Prop where
  opened : fs.open? path = .ok tree
  isDir : tree.isDir = true
  wellFormed : tree.WellFormed

/-- The sources of the templates of a tree by name. -/
def sourcesOf (tree : FileTree) : List (String × String) := (templateWalk tree).map sourceAt

variable {fs fs' : FileSystem} {path : String}

theorem load_eq (h : Opens fs path tree) (c : Collection) :
    c.load fs path = ((templateWalk tree).map (fileAt path)).mapM Collection.readFile >>=
      fun sources => .ok { c with sources := c.sources.insertAll sources } := by
  rw [Collection.load, h.opened]
  cases tree with
  | file content => cases h.isDir
  | dir entries =>
    rw [← templateFiles_eq h.wellFormed]
    rfl

theorem load_of_readable (h : Opens fs path tree) (hall : Readable tree) (c : Collection) :
    c.load fs path = .ok { c with sources := c.sources.insertAll (sourcesOf tree) } := by
  rw [load_eq h, mapM_readFile path fun p hp => hall p.1 p.2 ((mem_templateWalk_iff h.wellFormed).1 hp)]
  rfl

theorem load_of_unreadable (h : Opens fs path tree) (hfirst : FirstUnreadable tree place) (c : Collection) :
    c.load fs path = .error (.notText (Path.join path (joined place))) := by
  obtain ⟨before, p, after, hwalk, hbefore, hbad, hp⟩ :=
    exists_firstUnreadable h.wellFormed hfirst.not_readable
  obtain rfl := hp.unique hfirst
  have hstop : ((p :: after).map (fileAt path)).mapM Collection.readFile =
      .error (.notText (Path.join path (joined p.1))) := by
    simp [readFile_of_not_valid path hbad, bind, Except.bind]
  rw [load_eq h, hwalk, List.map_append, mapM_append_eq_error (mapM_readFile path hbefore) hstop]
  rfl

theorem load_congr (h : Opens fs path tree) (h' : Opens fs' path tree')
    (hsame : ∀ place content, IsTemplate tree place content ↔ IsTemplate tree' place content) (c : Collection) :
    c.load fs' path = c.load fs path := by
  rw [load_eq h, load_eq h', templateWalk_congr h.wellFormed h'.wellFormed hsame]

/-- The same directory in another order is as good. -/
theorem Opens.relisted (h : Opens fs path tree) (hopen : fs'.open? path = .ok tree')
    (hlisted : FileTree.Relisted tree tree') : Opens fs' path tree' :=
  ⟨hopen, hlisted.isDir.trans h.isDir, (hlisted.wellFormed_and_hasFile h.wellFormed).1⟩

theorem isTemplate_relisted (h : tree.WellFormed) (hlisted : FileTree.Relisted tree tree') (place : List String)
    (content : ByteArray) : IsTemplate tree place content ↔ IsTemplate tree' place content := by
  have hfile := (hlisted.wellFormed_and_hasFile h).2 place content
  exact ⟨fun ht => ⟨hfile.1 ht.file, ht.named⟩, fun ht => ⟨hfile.2 ht.file, ht.named⟩⟩

/-! ## What is loaded -/

theorem nodup_names (h : tree.WellFormed) : ((sourcesOf tree).map (·.1)).Nodup := by
  rw [sourcesOf, List.map_map]
  refine List.pairwise_map.2 ((pairwise_templateWalk h).imp_of_mem fun {p q} hp hq hlt hname => ?_)
  have hp := (mem_templateWalk_iff h).1 hp
  have hq := (mem_templateWalk_iff h).1 hq
  have hplace := hp.eq_of_name h hq ((nameAt_eq_iff hp.named).1 hname) ((nameAt_eq_iff hq.named).1 rfl)
  rw [hplace] at hlt
  exact List.lt_irrefl _ hlt

theorem mem_sourcesOf_iff (h : tree.WellFormed) (hall : Readable tree) {name source : String} :
    (name, source) ∈ sourcesOf tree ↔
      ∃ place, IsTemplate tree place source.toUTF8 ∧ joined place = name ++ ending := by
  rw [sourcesOf, List.mem_map]
  constructor
  · intro hmem
    obtain ⟨p, hp, heq⟩ := hmem
    obtain ⟨hname, rfl⟩ := Prod.mk.inj heq
    have htemplate := (mem_templateWalk_iff h).1 hp
    refine ⟨p.1, ?_, (nameAt_eq_iff htemplate.named).1 hname⟩
    rw [toUTF8_textOf (hall _ _ htemplate)]
    exact htemplate
  · intro hplace
    obtain ⟨place, htemplate, hname⟩ := hplace
    exact ⟨_, (mem_templateWalk_iff h).2 htemplate,
      Prod.ext ((nameAt_eq_iff htemplate.named).2 hname) (textOf_toUTF8 source)⟩

theorem holds_sourcesOf (h : tree.WellFormed) (hall : Readable tree) (target : Target) :
    Holds tree { target, sources := Dict.ofList (sourcesOf tree) } := by
  constructor
  · intro name t
    rw [← mem_sourcesOf_iff h hall, ← Dict.get?_ofList_eq_some_iff (nodup_names h), Collection.get?,
      Option.map_eq_some_iff]
    constructor
    · intro hfound
      obtain ⟨source, hsource, rfl⟩ := hfound
      exact ⟨rfl, hsource⟩
    · intro hfound
      obtain ⟨rfl, hsource⟩ := hfound
      exact ⟨t.source, hsource, rfl⟩
  · refine ⟨(templateWalk tree).map (·.1), FileTree.nodup_places (pairwise_templateWalk h), fun place => ?_, ?_⟩
    · simp [← mem_templateWalk_iff h]
    · have hlength := @Dict.length_insertAll _ [] _ (nodup_names h) (by simp [Dict.keys])
      simpa [Dict.ofList, sourcesOf] using hlength

/-- How the templates of a directory are loaded. -/
structure Loading (fs : FileSystem) (path : String) (tree : FileTree) (target : Target) : Prop where
  loaded_iff : (∃ c, Collection.ofDirectory target fs path = .ok c) ↔ Readable tree
  holds : ∀ c, Collection.ofDirectory target fs path = .ok c → c.target = target ∧ Holds tree c
  reported : ∀ fault, Collection.ofDirectory target fs path = .error fault ↔
    ∃ place, FirstUnreadable tree place ∧ fault = .notText (Path.join path (joined place))
  /-- Distinct files never share a name. -/
  named : ∀ name place place' content content', IsTemplate tree place content → IsTemplate tree place' content' →
    joined place = name ++ ending → joined place' = name ++ ending → place = place'
  /-- Overriding the templates that come with the library fails as loading alone does, and else
  finds what is in the directory first. -/
  overridden_iff : ∀ fault, Collection.withOverrides target fs path = .error fault ↔
    Collection.ofDirectory target fs path = .error fault
  overridden : ∀ c, Collection.ofDirectory target fs path = .ok c →
    ∃ overlaid, Collection.withOverrides target fs path = .ok overlaid ∧ overlaid.target = target ∧
      ∀ name, overlaid.get? name = (c.get? name).or ((Collection.embedded target).get? name)
  /-- A directory that differs in other files only is loaded alike. -/
  unread : ∀ fs' tree', Opens fs' path tree' →
    (∀ place content, IsTemplate tree place content ↔ IsTemplate tree' place content) →
    Collection.ofDirectory target fs' path = Collection.ofDirectory target fs path ∧
      Collection.withOverrides target fs' path = Collection.withOverrides target fs path
  /-- The order in which directories are listed does not matter. -/
  relisted : ∀ fs' tree', fs'.open? path = .ok tree' → FileTree.Relisted tree tree' →
    Collection.ofDirectory target fs' path = Collection.ofDirectory target fs path ∧
      Collection.withOverrides target fs' path = Collection.withOverrides target fs path

theorem readable_or_firstUnreadable (h : tree.WellFormed) : Readable tree ∨ ∃ place, FirstUnreadable tree place := by
  by_cases hall : Readable tree
  · exact .inl hall
  · obtain ⟨-, p, -, -, -, -, hp⟩ := exists_firstUnreadable h hall
    exact .inr ⟨p.1, hp⟩

theorem load_eq_error_iff (h : Opens fs path tree) (c : Collection) (fault : LoadFault) :
    c.load fs path = .error fault ↔
      ∃ place, FirstUnreadable tree place ∧ fault = .notText (Path.join path (joined place)) := by
  constructor
  · intro hfault
    rcases readable_or_firstUnreadable h.wellFormed with hall | ⟨place, hfirst⟩
    · rw [load_of_readable h hall] at hfault
      cases hfault
    · rw [load_of_unreadable h hfirst] at hfault
      cases hfault
      exact ⟨place, hfirst, rfl⟩
  · intro hfirst
    obtain ⟨place, hfirst, rfl⟩ := hfirst
    exact load_of_unreadable h hfirst c

theorem load_eq_ok_iff (h : Opens fs path tree) (c c' : Collection) :
    c.load fs path = .ok c' ↔
      Readable tree ∧ c' = { c with sources := c.sources.insertAll (sourcesOf tree) } := by
  constructor
  · intro hloaded
    rcases readable_or_firstUnreadable h.wellFormed with hall | ⟨place, hfirst⟩
    · rw [load_of_readable h hall] at hloaded
      cases hloaded
      exact ⟨hall, rfl⟩
    · rw [load_of_unreadable h hfirst] at hloaded
      cases hloaded
  · intro hall
    obtain ⟨hall, rfl⟩ := hall
    exact load_of_readable h hall c

theorem loading_of_opens (h : Opens fs path tree) (target : Target) : Loading fs path tree target where
  loaded_iff := by
    simp [Collection.ofDirectory, load_eq_ok_iff h]
  holds := by
    intro c hc
    obtain ⟨hall, rfl⟩ := (load_eq_ok_iff h _ _).1 hc
    exact ⟨rfl, holds_sourcesOf h.wellFormed hall target⟩
  reported := load_eq_error_iff h _
  named := fun _ _ _ _ _ ht ht' => ht.eq_of_name h.wellFormed ht'
  overridden_iff := fun fault => (load_eq_error_iff h _ fault).trans (load_eq_error_iff h _ fault).symm
  overridden := by
    intro c hc
    obtain ⟨hall, rfl⟩ := (load_eq_ok_iff h _ _).1 hc
    refine ⟨_, load_of_readable h hall _, rfl, fun name => ?_⟩
    simp only [Collection.get?, Dict.get?_insertAll_eq_or _ (nodup_names h.wellFormed)]
    cases Dict.get? (Dict.ofList (sourcesOf tree)) name <;> simp
  unread := fun fs' tree' h' hsame => ⟨load_congr h h' hsame _, load_congr h h' hsame _⟩
  relisted := fun fs' tree' hopen hlisted =>
    have hsame := isTemplate_relisted h.wellFormed hlisted
    have h' := h.relisted hopen hlisted
    ⟨load_congr h h' hsame _, load_congr h h' hsame _⟩

/-! ## Compilers from settings -/

/-- A compiler with the built-in kinds of components, as settings ask for it. -/
def compilerWith (settings : Settings) (templates : Collection) : Compiler :=
  { templates, palette := Component.builtin, maxNodes := settings.maxNodes }

/-- The compiler that settings ask for takes the templates of the directory of its target, if
there is one, and the embedded templates otherwise. -/
structure Configured (fs : FileSystem) (settings : Settings) (target : Target) : Prop where
  overriding : ∀ dir, settings.templateDir = some dir → fs.isDir (Path.join dir target.name) = true →
    (∀ compiler, Compiler.ofSettings fs settings target = .ok compiler ↔
      ∃ templates, Collection.withOverrides target fs (Path.join dir target.name) = .ok templates ∧
        compiler = compilerWith settings templates) ∧
    ∀ failure, Compiler.ofSettings fs settings target = .error failure ↔
      ∃ fault, Collection.withOverrides target fs (Path.join dir target.name) = .error fault ∧
        failure = .unloaded fault
  embedded : (∀ dir, settings.templateDir = some dir → fs.isDir (Path.join dir target.name) = false) →
    Compiler.ofSettings fs settings target = .ok (compilerWith settings (.embedded target))

theorem configured_ofSettings (fs : FileSystem) (settings : Settings) (target : Target) :
    Configured fs settings target where
  overriding := by
    intro dir hdir hisDir
    cases hloaded : Collection.withOverrides target fs (Path.join dir target.name) with
    | ok templates =>
      simp [Compiler.ofSettings, hdir, hisDir, hloaded, compilerWith, Compiler.ofTemplates, eq_comm]
    | error fault =>
      simp [Compiler.ofSettings, hdir, hisDir, hloaded, eq_comm]
  embedded := by
    intro hnone
    cases hdir : settings.templateDir with
    | none => simp [Compiler.ofSettings, hdir, compilerWith, Compiler.ofTemplates]
    | some dir => simp [Compiler.ofSettings, hdir, hnone dir hdir, compilerWith, Compiler.ofTemplates]

theorem Opens.isDir_eq (h : Opens fs path tree) : fs.isDir path = true := by
  rw [FileSystem.isDir, h.opened]
  exact h.isDir

/-- **A directory is loaded as its template files, in whatever order it is listed.**
If all of them are texts there is one template for each, and otherwise the
first that is none is reported; laid over the embedded templates they come
first. A compiler gets them from the directory that its settings name for its
target, and the embedded ones alone where there is none. -/
theorem loading_of_directory (h : Opens fs path tree) (target : Target) :
    fs.isDir path = true ∧ Loading fs path tree target ∧ ∀ settings, Configured fs settings target :=
  ⟨h.isDir_eq, loading_of_opens h target, fun settings => configured_ofSettings fs settings target⟩

/-- A directory with a template of no name, a file that is no text but no template either, and a
directory named like a template, which has one that is a text and one that is not. -/
def shelf : FileTree :=
  .dir
    [("notes", .file ⟨#[0xff]⟩), (".tmpl", .file "unnamed".toUTF8),
      ("b.tmpl", .dir [("x.py.tmpl", .file "{name}".toUTF8), (".tmpl", .file ⟨#[0xff]⟩)])]

theorem loading_of_directory_shelf :
    Opens ⟨.dir [("overrides", shelf)], []⟩ "overrides" shelf ∧
      FileSystem.isDir ⟨.dir [("overrides", shelf)], []⟩ "overrides" = true ∧
      Loading ⟨.dir [("overrides", shelf)], []⟩ "overrides" shelf .desktop ∧
      ∀ settings, Configured ⟨.dir [("overrides", shelf)], []⟩ settings .desktop := by
  have hwell : shelf.WellFormed := by
    refine .dir (by decide) (by decide) (List.forall_mem_cons.2 ⟨.file _, List.forall_mem_cons.2 ⟨.file _, ?_⟩⟩)
    refine List.forall_mem_singleton.2 (.dir (by decide) (by decide) ?_)
    exact List.forall_mem_cons.2 ⟨.file _, List.forall_mem_singleton.2 (.file _)⟩
  have hopens : Opens ⟨.dir [("overrides", shelf)], []⟩ "overrides" shelf := ⟨rfl, rfl, hwell⟩
  exact ⟨hopens, loading_of_directory hopens .desktop⟩

end FlowScript.Template
