/-
What a node says cannot add, remove or begin a line of a program: how many
lines there are is a matter of the types of the emitted nodes, and the lines
that begin as the comment of a node are exactly these comments
(`lines_of_program`).
-/
import FlowScript.Proofs.Source

namespace FlowScript

open Template (Piece Values spelled pieceLines)
open Code

variable {target : Target}

/-- The comment that names a node. -/
def markerLine (target : Target) (node : Node) : String :=
  target.nodeMarker ++ Identifier.commentSafe node.displayLabel ++ " (" ++ node.type ++ ")"

/-- The lines of a program that begin as comments that name nodes. -/
def markerLines (target : Target) (source : String) : List String :=
  (Text.splitAt '\n' source).filter fun line => target.nodeMarker.toList.isPrefixOf line.toList

/-- How many ends of lines pieces have. -/
def newlines (pieces : List Piece) : Nat := pieces.count (.char '\n')

/-- How many ends of lines a program with nodes of these types has: those of
its frame, those of the templates of the types, and two between nodes. -/
def lineEnds (target : Target) (types : List String) : Nat :=
  newlines (piecesBefore (framePieces target)) + newlines (piecesBehind (framePieces target)) + 2 +
    spacedSum (types.map fun type => newlines (componentPieces target type))

/-! ## Comments that name nodes -/

theorem count_spelled {values : Values} {pieces : List Piece} (h : Fit target values pieces) :
    (spelled values pieces).count '\n' = newlines pieces := by
  induction pieces with
  | nil => rfl
  | cons piece pieces ih =>
    have ih := ih h.tail
    cases piece with
    | char c =>
      rw [Template.spelled_char, newlines, List.count_cons, List.count_cons, ih]
      simp [newlines]
    | field f =>
      have hvalue : (values f.key).count '\n' = 0 :=
        List.count_eq_zero.2 fun hm => ((h f List.mem_cons_self).oneLine _ hm).1 rfl
      rw [Template.spelled_field, List.count_append, hvalue, ih, Nat.zero_add, newlines, newlines,
        List.count_cons, if_neg (by simp), Nat.add_zero]

/-- A line as a list, if it begins as the comment that names a node. -/
def markerOf (target : Target) (line : List Char) : List (List Char) :=
  if target.nodeMarker.toList.isPrefixOf line then [line] else []

theorem markerOf_nil : markerOf target [] = [] := by cases target <;> rfl

theorem flatMap_markerOf (lines : List (List Char)) :
    lines.flatMap (markerOf target) = lines.filter (target.nodeMarker.toList.isPrefixOf ·) := by
  induction lines with
  | nil => rfl
  | cons line lines ih =>
    rw [List.flatMap_cons, List.filter_cons, ih, markerOf]
    split <;> rfl

theorem markerOf_of_differs {values : Values} {line : List Piece} (hn : Named values line)
    (h : differs target.nodeMarker.toList line = true) : markerOf target (spelled values line) = [] := by
  rw [markerOf, if_neg]
  exact fun hp => not_isPrefix_spelled h hn (List.isPrefixOf_iff_prefix.1 hp)

theorem flatMap_markerOf_unmarked {values : Values} {pieces : List Piece} (hf : Fit target values pieces)
    {lines : List (List Piece)} (hsub : ∀ line ∈ lines, line ∈ pieceLines pieces)
    (h : ∀ line ∈ lines, differs target.nodeMarker.toList line = true) :
    (lines.map (spelled values)).flatMap (markerOf target) = [] := by
  rw [List.flatMap_map, List.flatMap_eq_nil_iff]
  exact fun line hline => markerOf_of_differs
    (hf.named.mono fun _ => mem_of_mem_pieceLines (hsub line hline)) (h line hline)

theorem commentSafe_type {b : Builtin} (hb : b ∈ builtins) : Identifier.commentSafe b.type = b.type := by
  revert b
  decide +kernel

/-- Of the lines of a node, the first and no other begins as the comment that names it. -/
theorem Spells.flatMap_markerOf {node : Node} {b : Builtin} (hb : b ∈ builtins)
    (htype : b.type = node.type) {values : Values} {code : String}
    (h : Spells target node.resolved b values code) :
    ((Program.dropNewlines code).toList.splitOn '\n').flatMap (markerOf target) =
      [(markerLine target node).toList] := by
  have hc := isComponent target hb
  rw [h.dropNewlines hb, Template.splitOn_spelled h.fit.inline]
  have hunmarked := hc.unmarked
  have hmarked := hc.marked
  cases hlines : pieceLines (componentPieces target b.type) with
  | nil => rw [hlines] at hmarked; cases hmarked
  | cons first rest =>
  rw [hlines] at hmarked hunmarked
  rw [List.tail_cons] at hunmarked
  cases hmarked
  rw [List.map_cons, List.flatMap_cons, flatMap_markerOf_unmarked h.fit _ hunmarked, List.append_nil]
  · have hfirst : spelled values (nodeLine target) = (markerLine target node).toList := by
      have htext : node.resolved.type = b.type := htype.symm
      rw [nodeLine, Template.spelled_append, Template.spelled_map_char]
      simp only [plainField, Template.spelled_field, Template.spelled_char, Template.spelled_nil,
        h.displayLabel, h.type, htext, commentSafe_type hb]
      rw [htype]
      simp [markerLine, Node.resolved]
    rw [hfirst, markerOf, if_pos]
    rw [List.isPrefixOf_iff_prefix, markerLine]
    simp only [String.toList_append, List.append_assoc]
    exact List.prefix_append _ _
  · rw [hlines]
    exact fun line => List.mem_cons_of_mem _

/-- Characters that no comment can be ended by. -/
def isRemarkChar (c : Char) : Bool := !Text.isControl c && (!Text.isBlank c || c == ' ')

theorem isRemark_of_all {cs : List Char} (h : cs.all isRemarkChar = true) : IsRemark cs := by
  intro c hc
  have hchar := List.all_eq_true.1 h c hc
  simp only [isRemarkChar, Bool.and_eq_true, Bool.or_eq_true, Bool.not_eq_true', beq_iff_eq] at hchar
  exact ⟨hchar.1, fun hb => hchar.2.resolve_left (by simp [hb])⟩

theorem IsRemark.append {a b : List Char} (ha : IsRemark a) (hb : IsRemark b) : IsRemark (a ++ b) :=
  fun c hc => (List.mem_append.1 hc).elim (ha c) (hb c)

/-- The comment that names an emitted node stays on its line. -/
theorem isRemark_markerLine {b : Builtin} (hb : b ∈ builtins) {node : Node} (htype : b.type = node.type) :
    IsRemark (markerLine target node).toList := by
  have hmarker : IsRemark target.nodeMarker.toList := isRemark_of_all (by cases target <;> decide)
  have hnode : IsRemark node.type.toList := by
    rw [← htype, ← commentSafe_type hb]
    exact isRemark_commentSafe _
  simp only [markerLine, String.toList_append]
  exact (((hmarker.append (isRemark_commentSafe _)).append (isRemark_of_all (by decide))).append
    hnode).append (isRemark_of_all (by decide))

/-! ## Lines of programs -/

namespace Compiler

variable {name : String} {graph : Graph} {table : Dict Json} {maxNodes : Nat} {report : Report}

theorem no_return (h : (upTo target maxNodes).compileGraph name graph table = .ok report) :
    '\r' ∉ report.source.toList := by
  obtain ⟨values, hbefore, hbehind, hsource⟩ := source_of_compileGraph h
  have hframe := isFrame target
  have hbody : '\r' ∉ (Program.body report.fragments).toList := by
    rw [toList_body]
    intro hm
    obtain ⟨t, ht, hm⟩ := (mem_spacedOut hm).resolve_left (by decide)
    obtain ⟨f, hf, rfl⟩ := List.mem_map.1 ht
    obtain ⟨node, -, b, hb, values, hspells⟩ := spells_of_mem_fragments h hf
    rw [hspells.dropNewlines hb] at hm
    exact not_mem_spelled (.inr rfl) hspells.fit (isComponent target hb).legible.noReturn hm
  rw [hsource]
  simp only [List.mem_append, List.mem_cons, not_or]
  exact ⟨not_mem_spelled (.inr rfl) hbefore hframe.legibleBefore.noReturn, by decide, hbody, by decide,
    not_mem_spelled (.inr rfl) hbehind hframe.legibleBehind.noReturn⟩

theorem count_newlines (h : (upTo target maxNodes).compileGraph name graph table = .ok report) :
    report.source.toList.count '\n' =
      lineEnds target (((upTo target maxNodes).emitted table graph.nodes).map (·.type)) := by
  obtain ⟨values, hbefore, hbehind, hsource⟩ := source_of_compileGraph h
  have hcounts := map_codes (g := fun code => (Program.dropNewlines code).toList.count '\n')
    (k := fun node => newlines (componentPieces target node.type)) h fun hb htype _ hspells => by
      rw [hspells.dropNewlines hb, count_spelled hspells.fit, htype]
  rw [hsource, List.count_append, List.count_cons_self, List.count_append, List.count_cons_self,
    count_spelled hbefore, count_spelled hbehind, toList_body, count_spacedOut, List.map_map, lineEnds,
    List.map_map]
  simp only [Function.comp_def, hcounts]
  omega

theorem markerLines_source (h : (upTo target maxNodes).compileGraph name graph table = .ok report) :
    markerLines target report.source =
      ((upTo target maxNodes).emitted table graph.nodes).map (markerLine target) := by
  obtain ⟨values, hbefore, hbehind, hsource⟩ := source_of_compileGraph h
  have hunmarked := (isFrame target).unmarked
  have hfragments := map_codes
    (g := fun code => ((Program.dropNewlines code).toList.splitOn '\n').flatMap (markerOf target))
    (k := fun node => [(markerLine target node).toList]) h
    fun hb htype _ hspells => hspells.flatMap_markerOf hb htype
  have hlines : (report.source.toList.splitOn '\n').flatMap (markerOf target) =
      ((upTo target maxNodes).emitted table graph.nodes).map fun node => (markerLine target node).toList := by
    rw [hsource, flatMap_lines markerOf_nil, hfragments, Template.splitOn_spelled hbefore.inline,
      Template.splitOn_spelled hbehind.inline,
      flatMap_markerOf_unmarked hbefore (fun _ => id) fun line hl => hunmarked line (List.mem_append_left _ hl),
      flatMap_markerOf_unmarked hbehind (fun _ => id) fun line hl => hunmarked line (List.mem_append_right _ hl)]
    rw [List.nil_append, List.append_nil]
    exact List.map_eq_flatMap.symm
  rw [flatMap_markerOf] at hlines
  rw [markerLines, Text.splitAt, List.filter_map]
  have hbegins : ((fun line : String => target.nodeMarker.toList.isPrefixOf line.toList) ∘ String.ofList) =
      (target.nodeMarker.toList.isPrefixOf ·) := funext fun cs => by
    rw [Function.comp_apply, String.toList_ofList]
  rw [hbegins, hlines, List.map_map]
  exact List.map_congr_left fun node _ => String.ofList_toList

/-- **What nodes say does not add, remove or begin lines of a program.** The
program has no carriage return; how many lines it has depends on the target
and the types of the emitted nodes alone; and the lines that begin as
comments that name nodes are these comments, one for each emitted node in
order, without control characters and separators of lines. -/
theorem lines_of_program (h : (upTo target maxNodes).compileGraph name graph table = .ok report) :
    report.fragments.map (·.nodeId) =
        ((upTo target maxNodes).emitted table graph.nodes).map (·.id) ∧
      '\r' ∉ report.source.toList ∧
      report.source.toList.count '\n' =
        lineEnds target (((upTo target maxNodes).emitted table graph.nodes).map (·.type)) ∧
      markerLines target report.source =
        ((upTo target maxNodes).emitted table graph.nodes).map (markerLine target) ∧
      ∀ line ∈ markerLines target report.source, ∀ c ∈ line.toList,
        Text.isControl c = false ∧ c ≠ '\u2028' ∧ c ≠ '\u2029' := by
  refine ⟨nodeIds_fragments h, no_return h, count_newlines h, markerLines_source h, ?_⟩
  intro line hline c hc
  rw [markerLines_source h] at hline
  obtain ⟨node, hnode, rfl⟩ := List.mem_map.1 hline
  obtain ⟨-, code, names, ho⟩ := mem_emitted.1 hnode
  obtain ⟨b, hb, htype, -⟩ := spells_of_emitted ho
  obtain ⟨hcontrol, hblank⟩ := isRemark_markerLine hb htype c hc
  refine ⟨hcontrol, ?_, ?_⟩
  · rintro rfl
    exact absurd (hblank (by decide)) (by decide)
  · rintro rfl
    exact absurd (hblank (by decide)) (by decide)

/-- A node whose label has ends of lines, and after them what begins the comment of a node. -/
def forgingNode : Node := keyNode "x\n# Node: y\u2028# Node: z\r"

theorem lines_of_forgingNode :
    ∃ report, (upTo .desktop 1).compileGraph "e\n" { nodes := [forgingNode], edges := [] } [] = .ok report ∧
      report.source.toList.count '\n' = lineEnds .desktop ["keyboard"] ∧
      markerLines .desktop report.source = ["# Node: x # Node: y # Node: z  (keyboard)"] := by
  obtain ⟨report, h⟩ := @compileGraph_upTo .desktop { nodes := [forgingNode], edges := [] } 1 "e\n" []
    (by decide)
  obtain ⟨code, ho⟩ : ∃ code, (upTo .desktop 1).outcome [] forgingNode = .emitted code _ :=
    outcome_keyNode _
  have hemitted : (upTo .desktop 1).emitted [] [forgingNode] = [forgingNode] := by
    simp [emitted, ho, Outcome.isEmitted]
  obtain ⟨-, -, hcount, hmarkers, -⟩ := lines_of_program h
  rw [hemitted] at hcount hmarkers
  exact ⟨report, h, hcount, hmarkers⟩

end Compiler

end FlowScript
