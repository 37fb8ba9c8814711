/-
What a compilation finds, said without the table of names that the compiler
keeps: a node that is left out is reported once, and each name that an
emitted node binds is held against the nodes before it. `Found` is the list
of findings by these rules alone, and `findings_eq_iff_found` says that a
report has exactly that list. The compiler's table of names takes part only
in `lookup_bindings`: it has a name at the id of the first node that binds it.
-/
import FlowScript.Proofs.Outcome

namespace FlowScript.Compiler

open Finding (What)

variable {c : Compiler} {table : Dict Json}

/-! ## The rules -/

/-- A node is emitted and binds a name. -/
def Binds (c : Compiler) (table : Dict Json) (node : Node) (name : String) : Prop :=
  ∃ code names, Becomes c table node (.emitted code names) ∧ name ∈ names

/-- The id of the first of some nodes that binds a name. -/
inductive FirstBinder (c : Compiler) (table : Dict Json) : List Node → String → String → Prop
  | here {node nodes name} (h : Binds c table node name) :
      FirstBinder c table (node :: nodes) name node.id
  | later {node nodes name id} (h : ¬ Binds c table node name)
      (hrest : FirstBinder c table nodes name id) : FirstBinder c table (node :: nodes) name id

/-- Whether a name is reported as reserved. -/
inductive FoundReserved (c : Compiler) (name : String) : List What → Prop
  | free (h : c.target.isReserved name = false) : FoundReserved c name []
  | reserved (h : c.target.isReserved name = true) : FoundReserved c name [.reserved name]

/-- Whether a name is reported as bound before, by a node of `earlier`. -/
inductive FoundCollision (c : Compiler) (table : Dict Json) (earlier : List Node) (name : String) :
    List What → Prop
  | fresh (h : ∀ node ∈ earlier, ¬ Binds c table node name) :
      FoundCollision c table earlier name []
  | collision {id} (h : FirstBinder c table earlier name id) :
      FoundCollision c table earlier name [.collision name id]

/-- What is found about names in turn, all of them against the same nodes. -/
inductive FoundNames (c : Compiler) (table : Dict Json) (earlier : List Node) :
    List String → List What → Prop
  | nil : FoundNames c table earlier [] []
  | cons {name names reserved collision rest} (hr : FoundReserved c name reserved)
      (hc : FoundCollision c table earlier name collision)
      (hrest : FoundNames c table earlier names rest) :
      FoundNames c table earlier (name :: names) (reserved ++ collision ++ rest)

/-- What is found about a node that comes after those of `earlier`. -/
inductive FoundNode (c : Compiler) (table : Dict Json) (earlier : List Node) (node : Node) :
    List What → Prop
  | unknownType (hb : Becomes c table node .unknownType) :
      FoundNode c table earlier node [.unknownType]
  | failed {cause} (hb : Becomes c table node (.failed cause)) :
      FoundNode c table earlier node [.failed cause]
  | emitted {code names found} (hb : Becomes c table node (.emitted code names))
      (h : FoundNames c table earlier names found) : FoundNode c table earlier node found

/-- What is found about nodes in turn, after those of `earlier`. -/
inductive Found (c : Compiler) (table : Dict Json) : List Node → List Node → List Finding → Prop
  | nil {earlier} : Found c table earlier [] []
  | cons {earlier node nodes found rest} (h : FoundNode c table earlier node found)
      (hrest : Found c table (earlier ++ [node]) nodes rest) :
      Found c table earlier (node :: nodes) (found.map (⟨node.id, node.type, ·⟩) ++ rest)

/-! ## The table of names -/

theorem binds_iff {node : Node} {name : String} :
    Binds c table node name ↔ name ∈ (c.outcome table node).names := by
  constructor
  · rintro ⟨code, names, hb, hn⟩
    rw [hb.outcome_eq]
    exact hn
  · intro hn
    cases ho : c.outcome table node with
    | unknownType => simp [ho, Outcome.names] at hn
    | failed cause => simp [ho, Outcome.names] at hn
    | emitted code names =>
      rw [ho] at hn
      exact ⟨code, names, becomes_iff.2 ho, hn⟩

/-- The names that nodes bind, with the id of the node each. -/
def bindings (c : Compiler) (table : Dict Json) (nodes : List Node) : Bindings :=
  nodes.flatMap fun node => (c.outcome table node).names.map fun name => (name, node.id)

theorem bindings_append_singleton (nodes : List Node) (node : Node) :
    bindings c table (nodes ++ [node]) =
      bindings c table nodes ++ (c.outcome table node).names.map fun name => (name, node.id) := by
  simp [bindings]

theorem lookup_map_pair (names : List String) (id name : String) :
    (names.map fun n => (n, id)).lookup name = if name ∈ names then some id else none := by
  induction names with
  | nil => rfl
  | cons n names ih =>
    rw [List.map_cons, List.lookup_cons, ih]
    by_cases h : name = n
    · simp [h]
    · have hb : (name == n) = false := beq_eq_false_iff_ne.2 h
      simp [h, hb]

/-- The table of names has a name at the id of the first node that binds it. -/
theorem lookup_bindings {nodes : List Node} {name id : String} :
    (bindings c table nodes).lookup name = some id ↔ FirstBinder c table nodes name id := by
  induction nodes with
  | nil =>
    refine ⟨fun h => ?_, fun h => ?_⟩
    · cases h
    · cases h
  | cons node nodes ih =>
    rw [bindings, List.flatMap_cons, List.lookup_append, lookup_map_pair]
    by_cases hn : name ∈ (c.outcome table node).names
    · have hb : Binds c table node name := binds_iff.2 hn
      simp only [hn, if_true, Option.some_or, Option.some.injEq]
      constructor
      · rintro rfl
        exact .here hb
      · intro h
        cases h with
        | here => rfl
        | later hnot => exact absurd hb hnot
    · have hnot : ¬ Binds c table node name := fun hb => hn (binds_iff.1 hb)
      simp only [hn, if_false, Option.none_or]
      refine ih.trans ⟨.later hnot, fun h => ?_⟩
      cases h with
      | here hb => exact absurd hb hnot
      | later _ hrest => exact hrest

theorem lookup_bindings_eq_none_iff {nodes : List Node} {name : String} :
    (bindings c table nodes).lookup name = none ↔ ∀ node ∈ nodes, ¬ Binds c table node name := by
  simp only [List.lookup_eq_none_iff, bindings, List.mem_flatMap, List.mem_map, binds_iff]
  constructor
  · intro h node hm hn
    simpa using h (name, node.id) ⟨node, hm, name, hn, rfl⟩
  · rintro h p ⟨node, hm, n, hn, rfl⟩
    simp only [bne_iff_ne, ne_eq]
    rintro rfl
    exact h node hm hn

/-! ## The compiler follows the rules -/

theorem foundReserved_iff {name : String} {found : List What} :
    FoundReserved c name found ↔ found = if c.target.isReserved name then [.reserved name] else [] := by
  constructor
  · intro h
    cases h with
    | free h => simp [h]
    | reserved h => simp [h]
  · rintro rfl
    split
    next h => exact .reserved h
    next h => exact .free (by simpa using h)

theorem foundCollision_iff {earlier : List Node} {name : String} {found : List What} :
    FoundCollision c table earlier name found ↔
      found = (((bindings c table earlier).lookup name).map (What.collision name)).toList := by
  constructor
  · intro h
    cases h with
    | fresh h => rw [lookup_bindings_eq_none_iff.2 h]; rfl
    | collision h => rw [lookup_bindings.2 h]; rfl
  · rintro rfl
    cases h : (bindings c table earlier).lookup name with
    | none => exact .fresh (lookup_bindings_eq_none_iff.1 h)
    | some id => exact .collision (lookup_bindings.1 h)

theorem foundNames_iff {earlier : List Node} {names : List String} {found : List What} :
    FoundNames c table earlier names found ↔
      found = names.flatMap (nameFindings c.target (bindings c table earlier)) := by
  induction names generalizing found with
  | nil =>
    constructor
    · intro h; cases h; rfl
    · rintro rfl; exact .nil
  | cons name names ih =>
    rw [List.flatMap_cons, nameFindings]
    constructor
    · intro h
      cases h with
      | cons hr hc hrest => rw [foundReserved_iff.1 hr, foundCollision_iff.1 hc, ih.1 hrest]
    · rintro rfl
      exact .cons (foundReserved_iff.2 rfl) (foundCollision_iff.2 rfl) (ih.2 rfl)

theorem foundNode_iff {earlier : List Node} {node : Node} {found : List What} :
    FoundNode c table earlier node found ↔
      found = outcomeFindings c.target (bindings c table earlier) (c.outcome table node) := by
  constructor
  · intro h
    cases h with
    | unknownType hb => rw [hb.outcome_eq]; rfl
    | failed hb => rw [hb.outcome_eq]; rfl
    | emitted hb h => rw [hb.outcome_eq]; exact foundNames_iff.1 h
  · rintro rfl
    cases ho : c.outcome table node with
    | unknownType => exact .unknownType (becomes_iff.2 ho)
    | failed cause => exact .failed (becomes_iff.2 ho)
    | emitted code names => exact .emitted (becomes_iff.2 ho) (foundNames_iff.2 rfl)

/-- The findings that the compiler computes with the table of names of some
nodes are those that the rules give after these nodes. -/
theorem found_iff {earlier nodes : List Node} {found : List Finding} :
    Found c table earlier nodes found ↔
      found = findings c.target (bindings c table earlier) (c.outcomes table nodes) := by
  -- A node that was passed joins `earlier`, and its names the table of names.
  induction nodes generalizing earlier found with
  | nil =>
    constructor
    · intro h; cases h; rfl
    · rintro rfl; exact .nil
  | cons node nodes ih =>
    rw [outcomes, List.map_cons, findings, ← bindings_append_singleton]
    constructor
    · intro h
      cases h with
      | cons h hrest => rw [foundNode_iff.1 h, ih.1 hrest]; rfl
    · rintro rfl
      exact .cons (foundNode_iff.2 rfl) (ih.2 rfl)

theorem found_of_compileGraph {name : String} {graph : Graph} {report : Report}
    (h : c.compileGraph name graph table = .ok report) :
    Found c table [] graph.nodes report.findings :=
  found_iff.2 (findings_of_compileGraph h)

/-! ## Clean reports -/

theorem foundNames_nil_iff {earlier : List Node} {names : List String} :
    FoundNames c table earlier names [] ↔
      ∀ name ∈ names, c.target.isReserved name = false ∧ ∀ node ∈ earlier, ¬ Binds c table node name := by
  rw [foundNames_iff, eq_comm, List.flatMap_eq_nil_iff]
  refine forall_congr' fun name => forall_congr' fun _ => ?_
  rw [nameFindings, List.append_eq_nil_iff, ← lookup_bindings_eq_none_iff]
  refine and_congr ?_ ?_
  · cases c.target.isReserved name <;> simp
  · cases (bindings c table earlier).lookup name <;> simp

/-- A node is emitted, and no name it binds is reserved or bound by `earlier`. -/
structure CleanNode (c : Compiler) (table : Dict Json) (earlier : List Node) (node : Node) : Prop where
  emitted : (c.outcome table node).isEmitted = true
  free : ∀ name, Binds c table node name → c.target.isReserved name = false
  fresh : ∀ name, Binds c table node name → ∀ e ∈ earlier, ¬ Binds c table e name

theorem foundNode_nil_iff {earlier : List Node} {node : Node} :
    FoundNode c table earlier node [] ↔ CleanNode c table earlier node := by
  constructor
  · intro h
    cases h with
    | emitted hb h =>
      have hnames := foundNames_nil_iff.1 h
      have ho := hb.outcome_eq
      have hbinds : ∀ name, Binds c table node name → name ∈ _ := fun name hn => by
        have hmem := binds_iff.1 hn
        rwa [ho] at hmem
      exact ⟨by rw [ho]; rfl, fun name hn => (hnames name (hbinds name hn)).1,
        fun name hn => (hnames name (hbinds name hn)).2⟩
  · rintro ⟨hemitted, hfree, hfresh⟩
    cases ho : c.outcome table node with
    | unknownType => rw [ho] at hemitted; cases hemitted
    | failed cause => rw [ho] at hemitted; cases hemitted
    | emitted code names =>
      have hbinds : ∀ name ∈ names, Binds c table node name := fun name hn =>
        ⟨code, names, becomes_iff.2 ho, hn⟩
      exact .emitted (becomes_iff.2 ho)
        (foundNames_nil_iff.2 fun name hn => ⟨hfree name (hbinds name hn), hfresh name (hbinds name hn)⟩)

theorem cleanNode_append_iff {earlier : List Node} {node first : Node} :
    CleanNode c table (earlier ++ [first]) node ↔
      CleanNode c table earlier node ∧ ∀ name, Binds c table first name → ¬ Binds c table node name := by
  constructor
  · intro h
    refine ⟨⟨h.emitted, h.free, fun name hn e he => h.fresh name hn e (List.mem_append_left _ he)⟩, ?_⟩
    exact fun name hfirst hn => h.fresh name hn first (List.mem_append_right _ List.mem_cons_self) hfirst
  · rintro ⟨h, hfirst⟩
    refine ⟨h.emitted, h.free, fun name hn e he => ?_⟩
    rcases List.mem_append.1 he with he | he
    · exact h.fresh name hn e he
    · rw [List.mem_singleton.1 he]
      exact fun hb => hfirst name hb hn

theorem found_cons_nil_iff {earlier nodes : List Node} {node : Node} :
    Found c table earlier (node :: nodes) [] ↔
      CleanNode c table earlier node ∧ Found c table (earlier ++ [node]) nodes [] := by
  rw [← foundNode_nil_iff]
  constructor
  · intro h
    generalize he : ([] : List Finding) = found at h
    cases h with
    | cons h hrest =>
      obtain ⟨hfound, rfl⟩ := List.append_eq_nil_iff.1 he.symm
      rw [List.map_eq_nil_iff] at hfound
      subst hfound
      exact ⟨h, hrest⟩
  · rintro ⟨h, hrest⟩
    exact .cons h hrest

/-- Nothing is found about nodes if all of them are clean, and no two bind the same name. -/
theorem found_nil_iff {earlier nodes : List Node} :
    Found c table earlier nodes [] ↔
      (∀ node ∈ nodes, CleanNode c table earlier node) ∧
        nodes.Pairwise fun first second =>
          ∀ name, Binds c table first name → ¬ Binds c table second name := by
  induction nodes generalizing earlier with
  | nil => exact ⟨fun _ => ⟨fun _ h => (List.not_mem_nil h).elim, .nil⟩, fun _ => .nil⟩
  | cons node nodes ih =>
    rw [found_cons_nil_iff, ih, List.forall_mem_cons, List.pairwise_cons]
    simp only [cleanNode_append_iff]
    constructor
    · rintro ⟨hnode, hnodes, hpairs⟩
      exact ⟨⟨hnode, fun n hn => (hnodes n hn).1⟩, fun n hn => (hnodes n hn).2, hpairs⟩
    · rintro ⟨⟨hnode, hnodes⟩, hfirst, hpairs⟩
      exact ⟨hnode, fun n hn => ⟨hnodes n hn, hfirst n hn⟩, hpairs⟩

/-- A report is clean if all nodes are emitted, none binds a reserved name,
and no two bind the same name. -/
theorem findings_eq_nil_iff {name : String} {graph : Graph} {report : Report}
    (h : c.compileGraph name graph table = .ok report) :
    report.findings = [] ↔
      (∀ node ∈ graph.nodes, CleanNode c table [] node) ∧
        graph.nodes.Pairwise fun first second =>
          ∀ name, Binds c table first name → ¬ Binds c table second name := by
  rw [← found_nil_iff, found_iff, found_iff.1 (found_of_compileGraph h), eq_comm]

/-- **The findings of a report are exactly those of the rules**, whatever the
templates, the kinds and the names that these declare: one finding for each
node that is left out, and for each name of an emitted node, in order, whether
it is reserved and which emitted node before was the first to bind it. -/
theorem findings_eq_iff_found {name : String} {graph : Graph} {report : Report}
    (h : c.compileGraph name graph table = .ok report) (found : List Finding) :
    report.findings = found ↔ Found c table [] graph.nodes found := by
  have hf := found_iff.1 (found_of_compileGraph h)
  rw [hf, eq_comm]
  exact found_iff.symm

/-- A kind of component that declares its label twice. -/
def twiceKind : Component.Kind :=
  { type := "twice", boundNames := fun label => [label, label], render := fun _ _ _ => .ok "pass" }

/-- A compiler that has this kind alone. -/
def twiceCompiler : Compiler :=
  { templates := .ofList .desktop [("experiment.py", "{components}")], palette := [("twice", twiceKind)],
    maxNodes := 5 }

/-- Four nodes of one label, the first with an odd entry and the third of
another type, and a node with a reserved label. -/
def twiceGraph : Graph :=
  { nodes := [(Node.bare "a" "twice").withLabel "x", (Node.bare "b" "twice").withLabel "x",
      (Node.bare "c" "thrice").withLabel "x", (Node.bare "d" "twice").withLabel "x",
      (Node.bare "e" "twice").withLabel "None"],
    edges := [] }

theorem found_twiceGraph :
    ∃ report, twiceCompiler.compileGraph "e" twiceGraph [("a", .bool true)] = .ok report ∧
      Found twiceCompiler [("a", .bool true)] [] twiceGraph.nodes
        [⟨"a", "twice", .failed (.oddEntry .boolean)⟩, ⟨"c", "thrice", .unknownType⟩,
          ⟨"d", "twice", .collision "x" "b"⟩, ⟨"d", "twice", .collision "x" "b"⟩,
          ⟨"e", "twice", .reserved "None"⟩, ⟨"e", "twice", .reserved "None"⟩] := by
  have h : twiceCompiler.compileGraph "e" twiceGraph [("a", .bool true)] = .ok _ :=
    compileGraph_eq_ok_iff.2 ⟨by decide, "pass\n\npass\n\npass", rfl, rfl⟩
  exact ⟨_, h, (findings_eq_iff_found h _).1 (by decide +kernel)⟩

end FlowScript.Compiler
