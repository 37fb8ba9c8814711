/-
The files of a directory tree by their places. A place is the list of names
that lead to a file; the walk through a tree gives each file once, in the
order of the places (`mem_walk_iff`, `pairwise_walk`). So the walk is known
from what the tree holds, and nothing that is found by walking depends on the
order in which directories list their entries (`eq_of_pairwise`). Paths are
places written with slashes, and different places have different paths.
-/
import FlowScript.Files.Tree

namespace FlowScript

/-- A place as a path. -/
def joined (place : List String) : String := String.intercalate "/" place

namespace FileTree

/-- A tree as a disk holds it: names are not empty and have no slashes, and no
directory has a name twice. -/
inductive WellFormed : FileTree → Prop
  | file (content : ByteArray) : WellFormed (.file content)
  | dir {entries} (names : ∀ e ∈ entries, e.1 ≠ "" ∧ '/' ∉ e.1.toList) (nodup : (entries.map (·.1)).Nodup)
      (each : ∀ e ∈ entries, WellFormed e.2) : WellFormed (.dir entries)

/-- There is a file at a place, with this content. -/
def HasFile (t : FileTree) (place : List String) (content : ByteArray) : Prop :=
  t.find? place = some (.file content)

/-- A tree as it is listed in another order. -/
inductive Relisted : FileTree → FileTree → Prop
  | refl (t : FileTree) : Relisted t t
  | perm {entries entries'} (h : entries.Perm entries') : Relisted (.dir entries) (.dir entries')
  | inside {before name t t' after} (h : Relisted t t') :
      Relisted (.dir (before ++ (name, t) :: after)) (.dir (before ++ (name, t') :: after))
  | trans {t t' t''} (h : Relisted t t') (h' : Relisted t' t'') : Relisted t t''

/-! ## The walk -/

mutual

/-- The files of a tree with their places, each directory in the order of its names. -/
def walk : FileTree → List (List String × ByteArray)
  | .file content => [([], content)]
  | .dir entries => ((entryWalks entries).mergeSort fun a b => decide (a.1 ≤ b.1)).flatMap (·.2)

/-- The files below each entry of a directory, by entry. -/
def entryWalks : List (String × FileTree) → List (String × List (List String × ByteArray))
  | [] => []
  | (name, t) :: rest => (name, t.walk.map fun p => (name :: p.1, p.2)) :: entryWalks rest

end

theorem entryWalks_eq (entries : List (String × FileTree)) :
    entryWalks entries = entries.map fun e => (e.1, e.2.walk.map fun p => (e.1 :: p.1, p.2)) := by
  induction entries with
  | nil => rfl
  | cons e entries ih => rw [entryWalks, ih, List.map_cons]

theorem entryFiles_eq (entries : List (String × FileTree)) :
    entryFiles entries = entries.map fun e =>
      (e.1, e.2.files.map fun p => if p.1.isEmpty then (e.1, p.2) else (e.1 ++ "/" ++ p.1, p.2)) := by
  induction entries with
  | nil => rfl
  | cons e entries ih => rw [entryFiles, ih, List.map_cons]

theorem mem_walk_dir {entries : List (String × FileTree)} {p : List String × ByteArray} :
    p ∈ (FileTree.dir entries).walk ↔ ∃ e ∈ entries, ∃ q ∈ e.2.walk, p = (e.1 :: q.1, q.2) := by
  simp only [walk, entryWalks_eq, List.mem_flatMap, List.mem_mergeSort, List.mem_map]
  constructor
  · intro h
    obtain ⟨_, ⟨e, he, rfl⟩, hp⟩ := h
    obtain ⟨q, hq, rfl⟩ := List.mem_map.1 hp
    exact ⟨e, he, q, hq, rfl⟩
  · intro h
    obtain ⟨e, he, q, hq, rfl⟩ := h
    exact ⟨_, ⟨e, he, rfl⟩, List.mem_map.2 ⟨q, hq, rfl⟩⟩

/-- With distinct names, an entry is found by its name. -/
theorem lookup_eq_some_iff_mem {entries : List (String × FileTree)} (h : (entries.map (·.1)).Nodup)
    {name : String} {t : FileTree} : entries.lookup name = some t ↔ (name, t) ∈ entries := by
  induction entries with
  | nil => simp
  | cons e entries ih =>
    rw [List.map_cons, List.nodup_cons] at h
    rw [List.lookup_cons]
    by_cases hname : name = e.1
    · subst hname
      have hrest : (e.1, t) ∉ entries := fun hmem => h.1 (List.mem_map.2 ⟨_, hmem, rfl⟩)
      simp [Prod.ext_iff, hrest, eq_comm]
    · have hb : (name == e.1) = false := by simpa using hname
      rw [hb, List.mem_cons, ih h.2]
      simp [Prod.ext_iff, hname]

theorem hasFile_dir {entries : List (String × FileTree)} {name : String} {place : List String} {content : ByteArray} :
    (FileTree.dir entries).HasFile (name :: place) content ↔
      ∃ t, entries.lookup name = some t ∧ t.HasFile place content := by
  simp [HasFile, find?, Option.bind_eq_some_iff]

/-- The walk gives the files of the tree. -/
theorem mem_walk_iff {t : FileTree} (h : t.WellFormed) {place : List String} {content : ByteArray} :
    (place, content) ∈ t.walk ↔ t.HasFile place content := by
  induction h generalizing place with
  | file => cases place <;> simp [walk, HasFile, find?, eq_comm]
  | @dir entries names nodup each ih =>
    rw [mem_walk_dir]
    cases place with
    | nil => simp [HasFile, find?]
    | cons name place =>
      rw [hasFile_dir]
      constructor
      · intro h
        obtain ⟨e, he, q, hq, heq⟩ := h
        obtain ⟨hplace, rfl⟩ := Prod.mk.inj heq
        obtain ⟨rfl, rfl⟩ := List.cons.inj hplace
        exact ⟨e.2, (lookup_eq_some_iff_mem nodup).2 he, (ih e he).1 hq⟩
      · intro h
        obtain ⟨t, ht, hfile⟩ := h
        have hmem := (lookup_eq_some_iff_mem nodup).1 ht
        exact ⟨_, hmem, (place, content), (ih _ hmem).2 hfile, rfl⟩

theorem pairwise_mergeSort {α : Type} {l : List (String × α)} (h : (l.map (·.1)).Nodup) :
    (l.mergeSort fun a b => decide (a.1 ≤ b.1)).Pairwise fun a b => a.1 < b.1 := by
  have hsorted := @List.pairwise_mergeSort (String × α) (fun a b => decide (a.1 ≤ b.1))
    (fun a b c hab hbc => by simpa using String.le_trans (by simpa using hab) (by simpa using hbc))
    (fun a b => by simpa using String.le_total a.1 b.1) l
  have hdistinct : (l.mergeSort fun a b => decide (a.1 ≤ b.1)).Pairwise fun a b => a.1 ≠ b.1 :=
    List.pairwise_map.1 (((List.mergeSort_perm l _).map _).nodup_iff.2 h)
  refine hsorted.imp₂ (fun a b hle hne => ?_) hdistinct
  exact String.not_le.1 fun hge => hne (String.le_antisymm (by simpa using hle) hge)

/-- The walk is in the order of the places. -/
theorem pairwise_walk {t : FileTree} (h : t.WellFormed) : t.walk.Pairwise fun a b => a.1 < b.1 := by
  induction h with
  | file => exact List.pairwise_singleton ..
  | @dir entries names nodup each ih =>
    rw [walk, List.pairwise_flatMap]
    have hmem : ∀ w ∈ (entryWalks entries).mergeSort fun a b => decide (a.1 ≤ b.1),
        ∃ e ∈ entries, w = (e.1, e.2.walk.map fun p => (e.1 :: p.1, p.2)) := by
      intro w hw
      rw [List.mem_mergeSort, entryWalks_eq, List.mem_map] at hw
      obtain ⟨e, he, rfl⟩ := hw
      exact ⟨e, he, rfl⟩
    constructor
    · intro w hw
      obtain ⟨e, he, rfl⟩ := hmem w hw
      exact List.pairwise_map.2 ((ih e he).imp fun hlt => List.cons_lt_cons_iff.2 (.inr ⟨rfl, hlt⟩))
    · have hnames : ((entryWalks entries).map (·.1)).Nodup := by
        rw [entryWalks_eq, List.map_map]
        exact nodup
      refine (pairwise_mergeSort hnames).imp_of_mem fun {v w} hv hw hlt x hx y hy => ?_
      obtain ⟨e, -, rfl⟩ := hmem v hv
      obtain ⟨f, -, rfl⟩ := hmem w hw
      obtain ⟨x, -, rfl⟩ := List.mem_map.1 hx
      obtain ⟨y, -, rfl⟩ := List.mem_map.1 hy
      exact List.cons_lt_cons_iff.2 (.inl hlt)

theorem nodup_places {l : List (List String × ByteArray)} (h : l.Pairwise fun a b => a.1 < b.1) :
    (l.map (·.1)).Nodup := by
  refine List.pairwise_map.2 (h.imp fun {a b} hlt heq => ?_)
  rw [heq] at hlt
  exact List.lt_irrefl _ hlt

/-- What is in the order of the places is known from its members. -/
theorem eq_of_pairwise {l l' : List (List String × ByteArray)} (h : l.Pairwise fun a b => a.1 < b.1)
    (h' : l'.Pairwise fun a b => a.1 < b.1) (hmem : ∀ p, p ∈ l ↔ p ∈ l') : l = l' := by
  have hnodup : ∀ m : List (List String × ByteArray), (m.map (·.1)).Nodup → m.Nodup :=
    fun _ hm => (List.pairwise_map.1 hm).imp fun hne heq => hne (congrArg Prod.fst heq)
  have hperm := (List.perm_ext_iff_of_nodup (hnodup _ (nodup_places h)) (hnodup _ (nodup_places h'))).2 hmem
  exact hperm.eq_of_pairwise (fun a b _ _ hlt hgt => absurd hgt (List.lt_asymm hlt)) h h'

/-! ## Places -/

/-- A place that leads to something: its names are not empty and have no slashes. -/
def IsPlace (place : List String) : Prop := ∀ name ∈ place, name ≠ "" ∧ '/' ∉ name.toList

theorem isPlace_of_mem_walk {t : FileTree} (h : t.WellFormed) {p : List String × ByteArray} (hp : p ∈ t.walk) :
    IsPlace p.1 := by
  induction h generalizing p with
  | file =>
    obtain rfl := List.mem_singleton.1 hp
    simp [IsPlace]
  | @dir entries names nodup each ih =>
    obtain ⟨e, he, q, hq, rfl⟩ := mem_walk_dir.1 hp
    exact List.forall_mem_cons.2 ⟨names e he, ih e he hq⟩

theorem joined_cons (name : String) {place : List String} (h : place ≠ []) :
    joined (name :: place) = name ++ "/" ++ joined place :=
  String.intercalate_cons_of_ne_nil h

theorem joined_ne_empty {place : List String} (h : IsPlace place) (hne : place ≠ []) : joined place ≠ "" := by
  cases place with
  | nil => exact absurd rfl hne
  | cons name place =>
    by_cases hplace : place = []
    · subst hplace
      simpa [joined] using (h name List.mem_cons_self).1
    · rw [joined_cons name hplace]
      intro hempty
      have hchars := congrArg String.toList hempty
      simp at hchars

/-- Different places have different paths. -/
theorem joined_injective {place place' : List String} (h : IsPlace place) (h' : IsPlace place')
    (heq : joined place = joined place') : place = place' := by
  have hsplit : ∀ {p : List String}, IsPlace p → p ≠ [] → Text.splitAt '/' (joined p) = p := by
    intro p hp hne
    have hslash : "/".toList = ['/'] := rfl
    rw [Text.splitAt, joined, String.toList_intercalate, hslash, List.splitOn_intercalate '/' _ (by simpa using hne),
      List.map_map]
    · simp [Function.comp_def]
    · intro cs hcs
      obtain ⟨name, hname, rfl⟩ := List.mem_map.1 hcs
      exact (hp name hname).2
  by_cases hne : place = []
  · by_cases hne' : place' = []
    · rw [hne, hne']
    · rw [hne] at heq
      exact absurd heq.symm (joined_ne_empty h' hne')
  · have hne' : place' ≠ [] := by
      intro hempty
      rw [hempty] at heq
      exact joined_ne_empty h hne heq
    rw [← hsplit h hne, heq, hsplit h' hne']

/-- Sorting by names does not see what goes with them. -/
theorem map_mergeSort {α β : Type} (f : α → β) (l : List (String × α)) :
    (l.mergeSort fun a b => decide (a.1 ≤ b.1)).map (fun w => (w.1, f w.2)) =
      (l.map fun w => (w.1, f w.2)).mergeSort fun a b => decide (a.1 ≤ b.1) :=
  List.map_mergeSort fun _ _ _ _ => rfl

/-- The files by path are the walk with its places as paths. -/
theorem files_eq {t : FileTree} (h : t.WellFormed) : t.files = t.walk.map fun p => (joined p.1, p.2) := by
  induction h with
  | file => rfl
  | @dir entries names nodup each ih =>
    have hentries : entryFiles entries =
        (entryWalks entries).map fun w => (w.1, w.2.map fun p => (joined p.1, p.2)) := by
      rw [entryFiles_eq, entryWalks_eq, List.map_map]
      refine List.map_congr_left fun e he => ?_
      rw [ih e he, Function.comp_apply, List.map_map, List.map_map]
      refine congrArg (Prod.mk e.1) (List.map_congr_left fun p hp => ?_)
      have hplace := isPlace_of_mem_walk (each e he) hp
      by_cases hne : p.1 = []
      · simp [hne, joined]
      · simp [joined_cons e.1 hne, joined_ne_empty hplace hne]
    rw [files, walk, hentries, ← map_mergeSort, List.flatMap_map, List.map_flatMap]

/-! ## Other orders of listing -/

/-- The files of a directory are below one of its entries or below the others. -/
theorem hasFile_inside {before after : List (String × FileTree)} {name : String} {t : FileTree}
    (h : ((before ++ (name, t) :: after).map (·.1)).Nodup) {first : String} {place : List String}
    {content : ByteArray} :
    (FileTree.dir (before ++ (name, t) :: after)).HasFile (first :: place) content ↔
      (first = name ∧ t.HasFile place content) ∨
        ∃ u, ((first, u) ∈ before ∨ (first, u) ∈ after) ∧ u.HasFile place content := by
  simp only [hasFile_dir, lookup_eq_some_iff_mem h, List.mem_append, List.mem_cons, Prod.mk.injEq]
  grind

theorem Relisted.isDir {t t' : FileTree} (h : Relisted t t') : t'.isDir = t.isDir := by
  induction h with
  | refl => rfl
  | perm => rfl
  | inside => rfl
  | trans _ _ ih ih' => exact ih'.trans ih

/-- The order in which directories are listed changes nothing about the files. -/
theorem Relisted.wellFormed_and_hasFile {t t' : FileTree} (h : Relisted t t') :
    t.WellFormed → t'.WellFormed ∧ ∀ place content, t.HasFile place content ↔ t'.HasFile place content := by
  induction h with
  | refl t => exact fun ht => ⟨ht, fun _ _ => Iff.rfl⟩
  | @perm entries entries' hperm =>
    intro ht
    obtain _ | ⟨names, nodup, each⟩ := ht
    have nodup' : (entries'.map (·.1)).Nodup := (hperm.map _).nodup_iff.1 nodup
    refine ⟨.dir (fun e he => names e (hperm.mem_iff.2 he)) nodup' fun e he => each e (hperm.mem_iff.2 he), ?_⟩
    intro place content
    cases place with
    | nil => simp [HasFile, find?]
    | cons name place =>
      simp only [hasFile_dir, lookup_eq_some_iff_mem nodup, lookup_eq_some_iff_mem nodup', hperm.mem_iff]
  | @inside before name t t' after h ih =>
    intro ht
    obtain _ | ⟨names, nodup, each⟩ := ht
    obtain ⟨hwell, hfiles⟩ := ih (each (name, t) (by simp))
    have nodup' : ((before ++ (name, t') :: after).map (·.1)).Nodup := by simpa using nodup
    simp only [List.forall_mem_append, List.forall_mem_cons] at names each
    refine ⟨.dir ?_ nodup' ?_, fun place content => ?_⟩
    · simpa only [List.forall_mem_append, List.forall_mem_cons] using names
    · simpa only [List.forall_mem_append, List.forall_mem_cons] using ⟨each.1, hwell, each.2.2⟩
    · cases place with
      | nil => simp [HasFile, find?]
      | cons first place => rw [hasFile_inside nodup, hasFile_inside nodup', hfiles]
  | trans h h' ih ih' =>
    intro ht
    obtain ⟨hmiddle, hfiles⟩ := ih ht
    obtain ⟨hlast, hfiles'⟩ := ih' hmiddle
    exact ⟨hlast, fun place content => (hfiles place content).trans (hfiles' place content)⟩

end FileTree

end FlowScript
