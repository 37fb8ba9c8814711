/-
Which properties of a node matter. The effective value of a property is the
first that is not null of its value in the table of properties and its value
in the node's own data (`Node.effective?`). What becomes of a node depends on
the effective values of its properties, besides its id, type and label, and on
nothing else, as long as its kind finds properties in no other way than
`Properties.get?` (`Kind.ReadsProperties`); the built-in kinds do. So it does
not matter where a property is kept (`Rearranges`). To the built-in kinds it
does not matter either how a number is given, as long as the readers of
numbers make the same of it (`render_builtin_of_readAlike`).
-/
import FlowScript.Proofs.Isolation
import FlowScript.Proofs.Embedded
import Mathlib.Data.List.Forall2
import Mathlib.Data.List.Nodup
import Mathlib.Data.List.ReduceOption
import Mathlib.Logic.Relation

namespace FlowScript

/-! ## Tables without a key -/

namespace Dict

variable {α : Type}

/-- The table without what it has for a key. -/
def erase (d : Dict α) (key : String) : Dict α := d.filter fun p => p.1 != key

theorem get?_erase_self (d : Dict α) (key : String) : (d.erase key).get? key = none := by
  induction d with
  | nil => rfl
  | cons p d ih =>
    obtain ⟨k, v⟩ := p
    by_cases hk : k = key
    · subst hk
      simpa [erase] using ih
    · have hkeep : erase ((k, v) :: d) key = (k, v) :: erase d key := by simp [erase, hk]
      rw [hkeep, get?_cons, if_neg (Ne.symm hk), ih]

theorem get?_erase_of_ne (d : Dict α) {key other : String} (h : other ≠ key) :
    (d.erase key).get? other = d.get? other := by
  induction d with
  | nil => rfl
  | cons p d ih =>
    obtain ⟨k, v⟩ := p
    by_cases hk : k = key
    · subst hk
      rw [get?_cons, if_neg h, ← ih]
      simp [erase]
    · have hkeep : erase ((k, v) :: d) key = (k, v) :: erase d key := by simp [erase, hk]
      rw [hkeep, get?_cons, get?_cons, ih]

end Dict

/-! ## Kinds that read properties -/

namespace Component

/-- Nodes that differ in their data at most. -/
structure SameBesidesData (node node' : Node.Resolved) : Prop where
  id : node.id = node'.id
  type : node.type = node'.type
  label : node.label = node'.label
  displayLabel : node.displayLabel = node'.displayLabel

/-- The same is found for every key, the label aside. -/
def Properties.Agree (p p' : Properties) : Prop := ∀ key, key ≠ "label" → p.get? key = p'.get? key

/-- A kind that reads the properties of a node, from its entry and its data,
only by what is found for their keys, the label aside. -/
def Kind.ReadsProperties (kind : Kind) : Prop :=
  ∀ {node node' entry entry'}, SameBesidesData node node' →
    Properties.Agree { entry, data := node.data } { entry := entry', data := node'.data } →
    ∀ templates, kind.render node entry templates = kind.render node' entry' templates

theorem baseContext_congr {node node' : Node.Resolved} (h : SameBesidesData node node') (target : Target) :
    baseContext target node = baseContext target node' := by
  rw [baseContext, baseContext, h.id, h.type, h.label, h.displayLabel]

section Readers

variable {p p' : Properties} {key : String} (h : p.get? key = p'.get? key)
include h

theorem textOr_congr (default : String) : p.textOr key default = p'.textOr key default := by
  rw [Properties.textOr, Properties.textOr, h]

theorem requiredText_congr : p.requiredText key = p'.requiredText key := by
  rw [Properties.requiredText, Properties.requiredText, h]

theorem numberOr_congr (default : Binary64) : p.numberOr key default = p'.numberOr key default := by
  rw [Properties.numberOr, Properties.numberOr, h]

theorem nonNegativeOr_congr (default : Binary64) :
    p.nonNegativeOr key default = p'.nonNegativeOr key default := by
  rw [Properties.nonNegativeOr, Properties.nonNegativeOr, numberOr_congr h]

theorem boolOr_congr (default : Bool) : p.boolOr key default = p'.boolOr key default := by
  rw [Properties.boolOr, Properties.boolOr, h]

theorem requiredNat_congr : p.requiredNat key = p'.requiredNat key := by
  rw [Properties.requiredNat, Properties.requiredNat, h]

end Readers

/-! ## Keys of numbers -/

/-- The keys that the built-in kinds read as numbers. -/
def numberKeys : List String := ["duration", "x", "y", "height", "pin"]

/-- The readers of numbers find the same for a key, or fail alike. -/
structure Properties.SameNumber (p p' : Properties) (key : String) : Prop where
  number : ∀ default, p.numberOr key default = p'.numberOr key default
  nonNegative : ∀ default, p.nonNegativeOr key default = p'.nonNegativeOr key default
  natural : p.requiredNat key = p'.requiredNat key

/-- The same is read for every key: the number for a key of a number, and else
what is found, the label aside. -/
structure Properties.ReadAlike (p p' : Properties) : Prop where
  value : ∀ key, key ≠ "label" → key ∉ numberKeys → p.get? key = p'.get? key
  number : ∀ key ∈ numberKeys, p.SameNumber p' key

theorem Properties.SameNumber.of_get? {p p' : Properties} {key : String} (h : p.get? key = p'.get? key) :
    p.SameNumber p' key :=
  ⟨numberOr_congr h, nonNegativeOr_congr h, requiredNat_congr h⟩

theorem Properties.SameNumber.trans {p q r : Properties} {key : String} (hpq : p.SameNumber q key)
    (hqr : q.SameNumber r key) : p.SameNumber r key :=
  ⟨fun default => (hpq.number default).trans (hqr.number default),
    fun default => (hpq.nonNegative default).trans (hqr.nonNegative default), hpq.natural.trans hqr.natural⟩

theorem Properties.ReadAlike.trans {p q r : Properties} (hpq : p.ReadAlike q) (hqr : q.ReadAlike r) :
    p.ReadAlike r :=
  ⟨fun key hkey hnumber => (hpq.value key hkey hnumber).trans (hqr.value key hkey hnumber),
    fun key hnumber => (hpq.number key hnumber).trans (hqr.number key hnumber)⟩

theorem Properties.Agree.readAlike {p p' : Properties} (h : p.Agree p') : p.ReadAlike p' := by
  refine ⟨fun key hkey _ => h key hkey, fun key hnumber => .of_get? (h key ?_)⟩
  rintro rfl
  exact absurd hnumber (by decide)

/-- Values that are the same for properties that are read alike. -/
def ReadsNumbers (values : Filling) : Prop :=
  ∀ {node node' p p'}, SameBesidesData node node' → p.ReadAlike p' →
    ∀ target, values node p target = values node' p' target

theorem readsNumbers_textValues : ReadsNumbers textValues := by
  intro node node' p p' hn hp target
  rw [textValues, textValues, textOr_congr (hp.value "text" (by decide) (by decide)),
    (hp.number "duration" (by decide)).nonNegative, (hp.number "x" (by decide)).number,
    (hp.number "y" (by decide)).number, (hp.number "height" (by decide)).number,
    textOr_congr (hp.value "color" (by decide) (by decide)), baseContext_congr hn]

theorem readsNumbers_imageValues : ReadsNumbers imageValues := by
  intro node node' p p' hn hp target
  rw [imageValues, imageValues, requiredText_congr (hp.value "image" (by decide) (by decide)),
    (hp.number "duration" (by decide)).nonNegative, (hp.number "x" (by decide)).number,
    (hp.number "y" (by decide)).number, hp.value "size" (by decide) (by decide), baseContext_congr hn]

theorem readsNumbers_keyboardValues : ReadsNumbers keyboardValues := by
  intro node node' p p' hn hp target
  rw [keyboardValues, keyboardValues, hp.value "allowed_keys" (by decide) (by decide),
    (hp.number "duration" (by decide)).nonNegative,
    boolOr_congr (hp.value "store_correct" (by decide) (by decide)),
    textOr_congr (hp.value "correct_answer" (by decide) (by decide)), baseContext_congr hn]

theorem readsNumbers_gpioValues : ReadsNumbers gpioValues := by
  intro node node' p p' hn hp target
  rw [gpioValues, gpioValues, pinNumber, pinNumber, (hp.number "pin" (by decide)).natural,
    hp.value "state" (by decide) (by decide), (hp.number "duration" (by decide)).nonNegative,
    baseContext_congr hn]

theorem readsNumbers_filled : ∀ p ∈ filled, ReadsNumbers p.2 :=
  forall_mem_filled (P := fun values _ => ReadsNumbers values) readsNumbers_textValues
    readsNumbers_imageValues readsNumbers_keyboardValues readsNumbers_gpioValues

/-! ## The built-in kinds -/

/-- A filled template depends on properties as its values do. -/
theorem fillTemplate_congr {values : Filling} {node node' : Node.Resolved} {entry entry' : Dict Json}
    (h : ∀ target, values node { entry, data := node.data } target =
      values node' { entry := entry', data := node'.data } target)
    (type : String) (templates : Template.Collection) :
    fillTemplate type values node entry templates = fillTemplate type values node' entry' templates := by
  rw [fillTemplate, fillTemplate, h]

/-- Nodes of a built-in kind whose properties are read alike become the same piece, or fail alike. -/
theorem render_builtin_of_readAlike {type : String} {kind : Kind} (hk : builtin.get? type = some kind)
    {node node' : Node.Resolved} {entry entry' : Dict Json} (hn : SameBesidesData node node')
    (hp : Properties.ReadAlike { entry, data := node.data } { entry := entry', data := node'.data })
    (templates : Template.Collection) : kind.render node entry templates = kind.render node' entry' templates := by
  obtain ⟨p, hfilled, -, -, hrender⟩ := get?_builtin_filled hk
  rw [hrender]
  exact fillTemplate_congr (readsNumbers_filled p hfilled hn hp) p.1.type templates

theorem readsProperties_builtin {type : String} {kind : Kind} (hk : builtin.get? type = some kind) :
    kind.ReadsProperties :=
  fun hn hagree templates => render_builtin_of_readAlike hk hn hagree.readAlike templates

end Component

open Component

/-! ## Effective values -/

/-- The value of a property that counts: the first that is not null of what an
entry and a node's own data have for the key. -/
def effective? (entry : Option Json) (data : Dict Json) (key : String) : Option Json :=
  ([entry.bind (·.member? key), data.get? key].reduceOption).find? (!·.isNull)

theorem filter_or_filter {α : Type} (p : α → Bool) (a b : Option α) :
    (a.filter p).or (b.filter p) = ([a, b].reduceOption).find? p := by
  have hone : ∀ c : Option α, c.filter p = ([c].reduceOption).find? p := by
    intro c
    cases c with
    | none => rfl
    | some x => cases hx : p x <;> simp [List.reduceOption, Option.filter, hx]
  cases a with
  | none => exact hone b
  | some x =>
    rw [List.reduceOption_cons_of_some, List.find?_cons, ← hone b, Option.filter]
    cases p x <;> rfl

theorem effective?_eq_or (entry : Option Json) (data : Dict Json) (key : String) :
    effective? entry data key =
      ((entry.bind (·.member? key)).filter (!·.isNull)).or ((data.get? key).filter (!·.isNull)) :=
  (filter_or_filter _ _ _).symm

namespace Node

variable {node node' : Node} {table table' : Dict Json}

theorem get?_properties (id : String) (table : Dict Json) (key : String) :
    (properties id table).get? key = (table.get? id).bind (·.member? key) := by
  rw [properties]
  cases table.get? id with
  | none => rfl
  | some entry => cases entry <;> rfl

/-- A node is resolved to its own data, but for the label. -/
theorem agree_resolved (node : Node) (entry : Dict Json) :
    Properties.Agree { entry, data := node.resolved.data } { entry, data := node.data } := by
  intro key hkey
  have hdata : node.resolved.data.get? key = node.data.get? key := Dict.get?_insert_of_ne _ _ hkey
  rw [Properties.get?, Properties.get?, Properties.present?, Properties.present?, Properties.present?, hdata]

/-- What a kind finds for a key is the effective value. -/
theorem get?_resolved (node : Node) (table : Dict Json) {key : String} (hkey : key ≠ "label") :
    Properties.get? { entry := properties node.id table, data := node.resolved.data } key =
      effective? (table.get? node.id) node.data key := by
  rw [agree_resolved node _ key hkey, effective?_eq_or, Properties.get?, Properties.present?, Properties.present?,
    get?_properties]

theorem sameBesidesData_resolved (hid : node.id = node'.id) (htype : node.type = node'.type)
    (hlabel : node.label? = node'.label?) : SameBesidesData node.resolved node'.resolved := by
  have hdisplay : node.displayLabel = node'.displayLabel := by
    rw [displayLabel, displayLabel, hlabel, hid]
  exact ⟨hid, htype, congrArg Identifier.sanitize hdisplay, hdisplay⟩

/-- Nodes that are the same for a compiler, by their entries in two tables. -/
structure SameProperties (table table' : Dict Json) (node node' : Node) : Prop where
  id : node.id = node'.id
  type : node.type = node'.type
  label : node.label? = node'.label?
  odd : oddEntry? node.id table = oddEntry? node'.id table'
  effective : ∀ key, key ≠ "label" →
    effective? (table.get? node.id) node.data key = effective? (table'.get? node'.id) node'.data key

namespace SameProperties

/-- Only its own entry matters to a node. -/
theorem of_entry (h : table.get? node.id = table'.get? node.id) :
    SameProperties table table' node node := by
  refine ⟨rfl, rfl, rfl, ?_, fun key _ => by rw [h]⟩
  unfold oddEntry?
  rw [h]

theorem resolved (h : SameProperties table table' node node') :
    SameBesidesData node.resolved node'.resolved :=
  sameBesidesData_resolved h.id h.type h.label

theorem agree (h : SameProperties table table' node node') :
    Properties.Agree { entry := properties node.id table, data := node.resolved.data }
      { entry := properties node'.id table', data := node'.resolved.data } := by
  intro key hkey
  rw [get?_resolved node table hkey, get?_resolved node' table' hkey, h.effective key hkey]

end SameProperties

end Node

/-! ## Compilations -/

namespace Compiler

/-- A compiler whose kinds are built in or find properties as those do. -/
def ReadsProperties (c : Compiler) : Prop :=
  ∀ type kind, c.palette.get? type = some kind →
    Component.builtin.get? type = some kind ∨ kind.ReadsProperties

variable {c : Compiler} {table table' : Dict Json} {node node' : Node}

/-- Nodes that are rendered alike become the same. -/
theorem outcome_of_render (htype : node.type = node'.type) (hlabel : node.resolved.label = node'.resolved.label)
    (hodd : Node.oddEntry? node.id table = Node.oddEntry? node'.id table')
    (hrender : ∀ kind, c.palette.get? node.type = some kind →
      kind.render node.resolved (Node.properties node.id table) c.templates =
        kind.render node'.resolved (Node.properties node'.id table') c.templates) :
    c.outcome table node = c.outcome table' node' := by
  unfold outcome
  rw [← htype]
  cases hk : c.palette.get? node.type with
  | none => rfl
  | some kind => simp only [Node.resolve, hodd, hrender kind hk, hlabel]

theorem outcome_of_sameProperties (hc : c.ReadsProperties)
    (h : Node.SameProperties table table' node node') : c.outcome table node = c.outcome table' node' := by
  refine outcome_of_render h.type h.resolved.label h.odd fun kind hk => ?_
  rcases hc _ _ hk with hbuiltin | hreads
  · exact readsProperties_builtin hbuiltin h.resolved h.agree c.templates
  · exact hreads h.resolved h.agree c.templates

variable {nodes nodes' : List Node}

theorem fragments_of_sameProperties (hc : c.ReadsProperties)
    (h : List.Forall₂ (Node.SameProperties table table') nodes nodes') :
    (c.outcomes table nodes).filterMap fragment? = (c.outcomes table' nodes').filterMap fragment? := by
  induction h with
  | nil => rfl
  | @cons node node' nodes nodes' hnode hnodes ih =>
    have hone : fragment? (node, c.outcome table node) = fragment? (node', c.outcome table' node') := by
      rw [outcome_of_sameProperties hc hnode]
      cases c.outcome table' node' with
      | unknownType | failed => rfl
      | emitted code names => rw [fragment?, fragment?, hnode.id]
    simp only [outcomes] at ih
    simp only [outcomes, List.map_cons, List.filterMap_cons, hone, ih]

/-- The same is found about nodes with the same properties, after the same names. -/
theorem findings_of_sameProperties (hc : c.ReadsProperties)
    (h : List.Forall₂ (Node.SameProperties table table') nodes nodes') (bound : Bindings) :
    findings c.target bound (c.outcomes table nodes) = findings c.target bound (c.outcomes table' nodes') := by
  induction h generalizing bound with
  | nil => rfl
  | @cons node node' nodes nodes' hnode hnodes ih =>
    simp only [outcomes] at ih
    simp only [outcomes, List.map_cons, findings, outcome_of_sameProperties hc hnode, hnode.id,
      hnode.type, ih]

/-- Graphs whose nodes have the same properties are compiled alike. -/
theorem compileGraph_of_sameProperties (hc : c.ReadsProperties) {graph graph' : Graph}
    (h : List.Forall₂ (Node.SameProperties table table') graph.nodes graph'.nodes) (name : String) :
    c.compileGraph name graph table = c.compileGraph name graph' table' := by
  have houtcomes : ∀ table (nodes : List Node),
      (nodes.map fun node => (node, c.outcome table node)) = c.outcomes table nodes := fun _ _ => rfl
  simp only [compileGraph, houtcomes, h.length_eq, fragments_of_sameProperties hc h,
    findings_of_sameProperties hc h]

end Compiler

/-! ## Where properties are kept -/

/-- Changes of a node's data and its entry that keep the effective values. The
label is no property that could be moved or overridden. -/
inductive Reshapes : Dict Json × Option Json → Dict Json × Option Json → Prop
  /-- A property moves from the data to an entry that has no value for it. -/
  | move {data entry key value} (hkey : key ≠ "label") (hv : Dict.get? data key = some value)
      (hplain : Node.PlainEntry entry)
      (hentry : ∀ t, entry.bind (·.member? key) = some t → t = .null) :
      Reshapes (data, entry)
        (data.erase key, some (.obj (((entry.bind Json.Tree.members?).getD []).insert key value)))
  /-- A null is dropped from the data. -/
  | dropInline {data entry key} (hv : Dict.get? data key = some .null) :
      Reshapes (data, entry) (data.erase key, entry)
  /-- A null is dropped from the entry. -/
  | dropListed {data members key} (hv : Dict.get? members key = some .null) :
      Reshapes (data, some (.obj members)) (data, some (.obj (members.erase key)))
  | noEntry {data} : Reshapes (data, some .null) (data, none)
  | emptyEntry {data} : Reshapes (data, some .null) (data, some (.obj []))
  /-- A value that the entry overrides is put into the data. -/
  | override {data members key value} (other : Json) (hkey : key ≠ "label")
      (hv : Dict.get? members key = some value) (hn : value ≠ .null) :
      Reshapes (data, some (.obj members)) (data.insert key other, some (.obj members))

/-- Changes of one node and its entry that keep the effective values. -/
inductive Rearranges : List Node × Dict Json → List Node × Dict Json → Prop
  | node {front rest node data table table'}
      (hnode : Reshapes (node.data, table.get? node.id) (data, table'.get? node.id))
      (hothers : ∀ id, id ≠ node.id → table'.get? id = table.get? id) :
      Rearranges (front ++ node :: rest, table) (front ++ { node with data } :: rest, table')

variable {data data' : Dict Json} {entry entry' : Option Json}

theorem member?_members (entry : Option Json) (key : String) :
    Dict.get? ((entry.bind Json.Tree.members?).getD []) key = entry.bind (·.member? key) := by
  cases entry with
  | none => rfl
  | some t => cases t <;> rfl

theorem filter_isNull_of_forall {value : Option Json} (h : ∀ t, value = some t → t = .null) :
    value.filter (!·.isNull) = none := by
  cases value with
  | none => rfl
  | some t => rw [h t rfl]; rfl

theorem Reshapes.effective (h : Reshapes (data, entry) (data', entry')) (key : String) :
    effective? entry data key = effective? entry' data' key := by
  rw [effective?_eq_or, effective?_eq_or]
  cases h with
  | @move data entry moved value hmoved hv hplain hentry =>
    change _ = ((Dict.get? (Dict.insert _ moved value) key).filter _).or _
    by_cases hk : key = moved
    · subst hk
      rw [Dict.get?_insert_self, Dict.get?_erase_self, hv, filter_isNull_of_forall hentry]
      simp
    · rw [Dict.get?_insert_of_ne _ _ hk, Dict.get?_erase_of_ne _ hk, member?_members]
  | @dropInline _ _ dropped hv =>
    by_cases hk : key = dropped
    · subst hk
      rw [Dict.get?_erase_self, hv]
      rfl
    · rw [Dict.get?_erase_of_ne _ hk]
  | @dropListed _ members dropped hv =>
    change ((Dict.get? members key).filter _).or _ = ((Dict.get? (Dict.erase members dropped) key).filter _).or _
    by_cases hk : key = dropped
    · subst hk
      rw [Dict.get?_erase_self, hv]
      rfl
    · rw [Dict.get?_erase_of_ne _ hk]
  | noEntry => rfl
  | emptyEntry => rfl
  | @override _ members overridden value other _ hv hn =>
    change ((Dict.get? members key).filter _).or _ = ((Dict.get? members key).filter _).or _
    by_cases hk : key = overridden
    · subst hk
      have hvalue : (some value).filter (!Json.Tree.isNull ·) = some value := by
        cases value <;> first | rfl | exact absurd rfl hn
      rw [hv, hvalue]
      rfl
    · rw [Dict.get?_insert_of_ne _ _ hk]

/-- The label stays, because a null is no label. -/
theorem Reshapes.label (h : Reshapes (data, entry) (data', entry')) :
    (data.get? "label").bind Json.Tree.text? = (data'.get? "label").bind Json.Tree.text? := by
  cases h with
  | move hkey => rw [Dict.get?_erase_of_ne _ (Ne.symm hkey)]
  | @dropInline _ _ dropped hv =>
    by_cases hk : "label" = dropped
    · subst hk
      rw [Dict.get?_erase_self, hv]
      rfl
    · rw [Dict.get?_erase_of_ne _ hk]
  | dropListed | noEntry | emptyEntry => rfl
  | override other hkey => rw [Dict.get?_insert_of_ne _ _ (Ne.symm hkey)]

/-- An entry is left as it is, or can be compiled with before and after. -/
theorem Reshapes.plain (h : Reshapes (data, entry) (data', entry')) :
    entry = entry' ∨ Node.PlainEntry entry ∧ Node.PlainEntry entry' := by
  cases h with
  | move _ _ hplain => exact .inr ⟨hplain, .inr rfl⟩
  | dropInline => exact .inl rfl
  | dropListed => exact .inr ⟨.inr rfl, .inr rfl⟩
  | noEntry => exact .inr ⟨.inl rfl, trivial⟩
  | emptyEntry => exact .inr ⟨.inl rfl, .inr rfl⟩
  | override => exact .inl rfl

variable {node : Node} {nodes nodes' : List Node} {table table' : Dict Json}

theorem Reshapes.sameProperties
    (h : Reshapes (node.data, table.get? node.id) (data', table'.get? node.id)) :
    Node.SameProperties table table' node { node with data := data' } := by
  refine ⟨rfl, rfl, h.label, ?_, fun key _ => h.effective key⟩
  rcases h.plain with hsame | ⟨hplain, hplain'⟩
  · unfold Node.oddEntry?
    rw [hsame]
  · rw [Node.oddEntry?_eq_none_iff.2 hplain]
    exact (Node.oddEntry?_eq_none_iff.2 hplain').symm

/-- A change of one node is none for the others, whose ids are different. -/
theorem Rearranges.sameProperties (h : Rearranges (nodes, table) (nodes', table'))
    (hd : (nodes.map (·.id)).Nodup) :
    List.Forall₂ (Node.SameProperties table table') nodes nodes' := by
  cases h with
  | @node front rest node data _ _ hnode hothers =>
    rw [List.map_append, List.map_cons, List.nodup_middle, List.nodup_cons, List.mem_append,
      not_or] at hd
    obtain ⟨⟨hfront, hrest⟩, -⟩ := hd
    have hsame : ∀ {others : List Node}, node.id ∉ others.map (·.id) →
        List.Forall₂ (Node.SameProperties table table') others others := by
      intro others hid
      refine List.forall₂_same.2 fun other hother => .of_entry (hothers other.id ?_).symm
      rintro he
      exact hid (he ▸ List.mem_map_of_mem hother)
    exact List.rel_append (hsame hfront) (.cons hnode.sameProperties (hsame hrest))

theorem Rearranges.map_id (h : Rearranges (nodes, table) (nodes', table')) :
    nodes'.map (·.id) = nodes.map (·.id) := by
  cases h
  simp

/-- Graphs that differ in where the properties of their nodes are kept are
compiled alike, if the ids of the nodes are distinct. -/
theorem Compiler.compileGraph_of_rearranges {c : Compiler} (hc : c.ReadsProperties)
    {start finish : List Node × Dict Json} (h : Relation.ReflTransGen Rearranges start finish)
    (hd : (start.1.map (·.id)).Nodup) (name : String) (edges edges' : List Json) :
    c.compileGraph name { nodes := start.1, edges } start.2 =
      c.compileGraph name { nodes := finish.1, edges := edges' } finish.2 := by
  induction h using Relation.ReflTransGen.head_induction_on with
  | refl => rfl
  | @head start next hstep _ ih =>
    have hids : next.1.map (·.id) = start.1.map (·.id) := hstep.map_id
    rw [← ih (hids ▸ hd)]
    exact compileGraph_of_sameProperties hc (hstep.sameProperties hd) name

/-- A compiler to which only the effective values of properties matter. -/
structure EffectiveOnly (c : Compiler) : Prop where
  /-- Nodes become the same, and are described alike to the templates. -/
  node : ∀ {node node' : Node} {table table' : Dict Json},
    node.id = node'.id → node.type = node'.type → node.label? = node'.label? →
    Node.PlainEntry (table.get? node.id) → Node.PlainEntry (table'.get? node'.id) →
    (∀ key, key ≠ "label" →
      effective? (table.get? node.id) node.data key = effective? (table'.get? node'.id) node'.data key) →
    c.outcome table node = c.outcome table' node' ∧
      baseContext c.target node.resolved = baseContext c.target node'.resolved
  /-- Graphs are compiled alike wherever the properties of their nodes are kept. -/
  graph : ∀ {graph graph' : Graph} {table table' : Dict Json}, (graph.nodes.map (·.id)).Nodup →
    Relation.ReflTransGen Rearranges (graph.nodes, table) (graph'.nodes, table') →
    ∀ name, c.compileGraph name graph table = c.compileGraph name graph' table'

/-- **Only the effective values of properties matter** to a compiler whose
kinds are built in, or find properties as those do. -/
theorem effectiveOnly_of_readsProperties {c : Compiler} (hc : c.ReadsProperties) : EffectiveOnly c := by
  refine ⟨?_, ?_⟩
  · intro node node' table table' hid htype hlabel hplain hplain' heffective
    have hodd : Node.oddEntry? node.id table = Node.oddEntry? node'.id table' := by
      rw [Node.oddEntry?_eq_none_iff.2 hplain, Node.oddEntry?_eq_none_iff.2 hplain']
    have hsame : Node.SameProperties table table' node node' := ⟨hid, htype, hlabel, hodd, heffective⟩
    exact ⟨Compiler.outcome_of_sameProperties hc hsame, baseContext_congr hsame.resolved c.target⟩
  · intro graph graph' table table' hd h name
    exact Compiler.compileGraph_of_rearranges hc h hd name graph.edges graph'.edges

/-- Two nodes, the first with a property and a null in its own data. -/
def scatteredGraph : Graph :=
  { nodes := [{ id := "a", type := "text", data := [("text", .str "Hi"), ("x", .null)] },
      Node.bare "b" "gpio"],
    edges := [] }

/-- The same nodes, the first with another text in its data. -/
def gatheredGraph : Graph :=
  { nodes := [{ id := "a", type := "text", data := [("text", .str "Bye")] }, Node.bare "b" "gpio"],
    edges := [.null] }

/-- The text in the table counts, wherever it has come from. -/
theorem effectiveOnly_gatheredGraph :
    (scatteredGraph.nodes.map (·.id)).Nodup ∧
      (Compiler.builtin .desktop).compileGraph "e" scatteredGraph [("a", .null)] =
        (Compiler.builtin .desktop).compileGraph "e" gatheredGraph
          [("a", .obj [("text", .str "Hi")])] := by
  have hreads : (Compiler.builtin .desktop).ReadsProperties := fun _ _ hk => .inl hk
  have hd : (scatteredGraph.nodes.map (·.id)).Nodup := by decide
  have hothers : ∀ t t' : Json, ∀ id, id ≠ "a" →
      Dict.get? [("a", t')] id = Dict.get? [("a", t)] id := by
    intro t t' id hid
    simp [Dict.get?_cons, hid]
  have hstep : ∀ {data data' t t'}, Reshapes (data, some t) (data', some t') →
      Rearranges ([{ id := "a", type := "text", data }, Node.bare "b" "gpio"], [("a", t)])
        ([{ id := "a", type := "text", data := data' }, Node.bare "b" "gpio"], [("a", t')]) := by
    intro data data' t t' h
    exact @Rearranges.node [] _ { id := "a", type := "text", data } data' _ _ h (hothers t t')
  have hentry : ∀ t, Option.bind (some (.obj [] : Json)) (·.member? "text") = some t → t = .null := by
    intro t ht
    cases ht
  have hmove : Reshapes ([("text", .str "Hi"), ("x", .null)], some (.obj []))
      ([("x", .null)], some (.obj [("text", .str "Hi")])) :=
    @Reshapes.move _ _ "text" _ (by decide) rfl (.inr rfl) hentry
  have hoverride : Reshapes ([], some (.obj [("text", .str "Hi")]))
      ([("text", .str "Bye")], some (.obj [("text", .str "Hi")])) :=
    @Reshapes.override _ _ "text" (.str "Hi") (.str "Bye") (by decide) rfl (by intro h; cases h)
  have hsteps : Relation.ReflTransGen Rearranges (scatteredGraph.nodes, [("a", .null)])
      (gatheredGraph.nodes, [("a", .obj [("text", .str "Hi")])]) :=
    .head (hstep .emptyEntry) <| .head (hstep hmove) <|
      .head (hstep (@Reshapes.dropInline _ _ "x" rfl)) <| .single (hstep hoverride)
  exact ⟨hd, (effectiveOnly_of_readsProperties hreads).graph hd hsteps "e"⟩

end FlowScript
