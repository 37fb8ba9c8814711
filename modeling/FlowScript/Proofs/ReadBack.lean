/-
Reading undoes writing. A notation is `Lawful` when its words, texts, brackets
and numbers begin with different characters and each of its escapes is read
back. What such a notation writes for a document is then read as that
document, its numbers as their tokens, and nothing that follows is touched
(`readValue_write`).
-/
import FlowScript.Json.Reader

namespace FlowScript

namespace Json

/-! ## Documents -/

namespace Tree

variable {ν ν' : Type}

mutual

/-- The document with other numbers. -/
def map (f : ν → ν') : Tree ν → Tree ν'
  | .null => .null
  | .bool b => .bool b
  | .num n => .num (f n)
  | .str s => .str s
  | .arr items => .arr (mapItems f items)
  | .obj members => .obj (mapMembers f members)

def mapItems (f : ν → ν') : List (Tree ν) → List (Tree ν')
  | [] => []
  | t :: ts => map f t :: mapItems f ts

def mapMembers (f : ν → ν') : List (String × Tree ν) → List (String × Tree ν')
  | [] => []
  | (k, t) :: ms => (k, map f t) :: mapMembers f ms

end

mutual

/-- The numbers in a document, in order. -/
def numbers : Tree ν → List ν
  | .num n => [n]
  | .arr items => numbersOfItems items
  | .obj members => numbersOfMembers members
  | _ => []

def numbersOfItems : List (Tree ν) → List ν
  | [] => []
  | t :: ts => numbers t ++ numbersOfItems ts

def numbersOfMembers : List (String × Tree ν) → List ν
  | [] => []
  | (_, t) :: ms => numbers t ++ numbersOfMembers ms

end

mutual

/-- How many brackets are open at once. -/
def height : Tree ν → Nat
  | .arr items => heightOfItems items + 1
  | .obj members => heightOfMembers members + 1
  | _ => 0

def heightOfItems : List (Tree ν) → Nat
  | [] => 0
  | t :: ts => max (height t) (heightOfItems ts)

def heightOfMembers : List (String × Tree ν) → Nat
  | [] => 0
  | (_, t) :: ms => max (height t) (heightOfMembers ms)

end

theorem mapItems_eq_map (f : ν → ν') (items : List (Tree ν)) : mapItems f items = items.map (map f) := by
  induction items with
  | nil => rfl
  | cons t ts ih => rw [mapItems, ih, List.map_cons]

theorem mapMembers_eq_map (f : ν → ν') (members : List (String × Tree ν)) :
    mapMembers f members = members.map fun p => (p.1, map f p.2) := by
  induction members with
  | nil => rfl
  | cons p ms ih => rw [mapMembers, ih, List.map_cons]

theorem numbers_subset_items {items : List (Tree ν)} {t : Tree ν} (h : t ∈ items) :
    t.numbers ⊆ numbersOfItems items := by
  induction h with
  | head => exact fun n hn => List.mem_append_left _ hn
  | tail _ _ ih => exact fun n hn => List.mem_append_right _ (ih hn)

theorem numbers_subset_members {members : List (String × Tree ν)} {p : String × Tree ν}
    (h : p ∈ members) : p.2.numbers ⊆ numbersOfMembers members := by
  induction h with
  | head => exact fun n hn => List.mem_append_left _ hn
  | tail _ _ ih => exact fun n hn => List.mem_append_right _ (ih hn)

theorem height_le_items {items : List (Tree ν)} {t : Tree ν} (h : t ∈ items) :
    t.height ≤ heightOfItems items := by
  induction h with
  | head => exact Nat.le_max_left _ _
  | tail _ _ ih => exact Nat.le_trans ih (Nat.le_max_right _ _)

theorem height_le_members {members : List (String × Tree ν)} {p : String × Tree ν} (h : p ∈ members) :
    p.2.height ≤ heightOfMembers members := by
  induction h with
  | head => exact Nat.le_max_left _ _
  | tail _ _ ih => exact Nat.le_trans ih (Nat.le_max_right _ _)

variable {f : ν → ν'}

/-- A function that tells the numbers of two lists apart. -/
def Apart (f : ν → ν') (ns ns' : List ν) : Prop := ∀ n ∈ ns, ∀ n' ∈ ns', f n = f n' → n = n'

theorem Apart.left {a b a' b' : List ν} (h : Apart f (a ++ b) (a' ++ b')) : Apart f a a' :=
  fun n hn n' hn' => h n (List.mem_append_left _ hn) n' (List.mem_append_left _ hn')

theorem Apart.right {a b a' b' : List ν} (h : Apart f (a ++ b) (a' ++ b')) : Apart f b b' :=
  fun n hn n' hn' => h n (List.mem_append_right _ hn) n' (List.mem_append_right _ hn')

mutual

theorem eq_of_map_eq : ∀ {t t' : Tree ν}, Apart f t.numbers t'.numbers → t.map f = t'.map f → t = t'
  | .null, t', _, h => by cases t' <;> cases h; rfl
  | .bool b, t', _, h => by cases t' <;> cases h; rfl
  | .str s, t', _, h => by cases t' <;> cases h; rfl
  | .num n, t', ha, h => by
    cases t' with
    | num n' =>
      injection h with h
      rw [ha n List.mem_cons_self n' List.mem_cons_self h]
    | null | bool | str | arr | obj => cases h
  | .arr items, t', ha, h => by
    cases t' with
    | arr items' =>
      injection h with h
      rw [eq_of_mapItems_eq ha h]
    | null | bool | str | num | obj => cases h
  | .obj members, t', ha, h => by
    cases t' with
    | obj members' =>
      injection h with h
      rw [eq_of_mapMembers_eq ha h]
    | null | bool | str | num | arr => cases h

theorem eq_of_mapItems_eq : ∀ {items items' : List (Tree ν)},
    Apart f (numbersOfItems items) (numbersOfItems items') → mapItems f items = mapItems f items' → items = items'
  | [], items', _, h => by cases items' <;> cases h; rfl
  | t :: ts, items', ha, h => by
    cases items' with
    | nil => cases h
    | cons t' ts' =>
      injection h with hhead htail
      rw [eq_of_map_eq ha.left hhead, eq_of_mapItems_eq ha.right htail]

theorem eq_of_mapMembers_eq : ∀ {members members' : List (String × Tree ν)},
    Apart f (numbersOfMembers members) (numbersOfMembers members') →
      mapMembers f members = mapMembers f members' → members = members'
  | [], members', _, h => by cases members' <;> cases h; rfl
  | (k, t) :: ms, members', ha, h => by
    cases members' with
    | nil => cases h
    | cons p ms' =>
      obtain ⟨k', t'⟩ := p
      injection h with hhead htail
      injection hhead with hkey hvalue
      rw [hkey, eq_of_map_eq ha.left hvalue, eq_of_mapMembers_eq ha.right htail]

end
end Tree

namespace Style

variable {ν : Type} (style : Style) (number : ν → List Char)

/-- A key, a colon and a value. -/
def writeMember (p : String × Tree ν) : List Char :=
  style.quoted p.1 ++ (style.colon ++ style.write number p.2)

theorem writeItems_eq_intercalate (items : List (Tree ν)) :
    style.writeItems number items = style.comma.intercalate (items.map (style.write number)) := by
  induction items with
  | nil => simp [writeItems]
  | cons t ts ih =>
    cases ts with
    | nil => simp [writeItems]
    | cons t' ts =>
      rw [writeItems, ih]
      · simp only [List.map_cons, List.intercalate_cons_cons, List.append_assoc]
      · exact List.cons_ne_nil _ _

theorem writeMembers_eq_intercalate (members : List (String × Tree ν)) :
    style.writeMembers number members = style.comma.intercalate (members.map (style.writeMember number)) := by
  induction members with
  | nil => simp [writeMembers]
  | cons p ms ih =>
    obtain ⟨k, t⟩ := p
    cases ms with
    | nil => simp [writeMembers, writeMember]
    | cons p' ms =>
      rw [writeMembers, ih]
      · simp only [List.map_cons, List.intercalate_cons_cons, List.append_assoc, writeMember]
      · exact List.cons_ne_nil _ _

end Style

/-! ## Blanks -/

/-- Nothing but blanks. -/
def Blank (gap : List Char) : Prop := ∀ c ∈ gap, isSpace c = true

theorem Blank.nil : Blank [] := by simp [Blank]

theorem skip_blank {gap : List Char} (hgap : Blank gap) {c : Char} (hc : isSpace c = false)
    (cs : List Char) : skip (gap ++ c :: cs) = c :: cs := by
  rw [skip, List.dropWhile_append_of_pos hgap, List.dropWhile_cons_of_neg (by simp [hc])]

theorem skip_firm {c : Char} (hc : isSpace c = false) (cs : List Char) : skip (c :: cs) = c :: cs :=
  skip_blank .nil hc cs

/-! ## Numbers -/

/-- Whether a character goes on a number. -/
def continues (c : Char) : Bool := c.isDigit || ['.', 'e', 'E'].contains c

/-- What may follow a number without becoming part of it. -/
def Ends (rest : List Char) : Prop := ∀ c ∈ rest.head?, continues c = false

theorem Ends.nil : Ends [] := by simp [Ends]

theorem Ends.cons {c : Char} (hc : continues c = false) (cs : List Char) : Ends (c :: cs) := by
  simpa [Ends] using hc

/-- The token of a number, wherever it ends. -/
structure IsToken (cs : List Char) : Prop where
  starts : ∃ c rest, cs = c :: rest ∧ (c = '-' ∨ c.isDigit = true)
  reads : ∀ rest, Ends rest → readToken (cs ++ rest) = some (cs, rest)

/-! ## Notations -/

/-- What a word or a text may begin with: no blank, no bracket and nothing
that a number begins with. -/
def isMark (c : Char) : Bool :=
  !isSpace c && !c.isDigit && decide (c ∉ ['-', '[', ']', '{', '}'])

theorem isMark_iff {c : Char} :
    isMark c = true ↔ isSpace c = false ∧ c.isDigit = false ∧ c ≠ '-' ∧ c ≠ '[' ∧ c ≠ ']' ∧ c ≠ '{' ∧ c ≠ '}' := by
  simp [isMark, and_assoc]

namespace Dialect

/-- A notation whose reader takes back what its style writes. -/
structure Lawful (d : Dialect) : Prop where
  readChar_escape : ∀ c rest, d.readChar (d.style.escape c ++ rest) = some (c, rest)
  escape_starts : ∀ c, ∃ e es, d.style.escape c = e :: es ∧ e ≠ d.style.quote
  null_isMark : d.style.null.head?.any isMark = true
  yes_isMark : d.style.yes.head?.any isMark = true
  no_isMark : d.style.no.head?.any isMark = true
  quote_isMark : isMark d.style.quote = true
  marks_nodup : [d.style.null.head?, d.style.yes.head?, d.style.no.head?, some d.style.quote].Nodup
  comma : ∃ gap, d.style.comma = ',' :: gap ∧ Blank gap
  colon : ∃ gap, d.style.colon = ':' :: gap ∧ Blank gap

variable {d : Dialect}

/-! ### Texts -/

theorem readChars_flatMap (hd : d.Lawful) {fuel : Nat} {cs : List Char} (h : cs.length < fuel)
    (rest : List Char) :
    d.readChars fuel (cs.flatMap d.style.escape ++ d.style.quote :: rest) = some (cs, rest) := by
  induction cs generalizing fuel with
  | nil =>
    cases fuel with
    | zero => cases h
    | succ fuel => simp [readChars]
  | cons c cs ih =>
    cases fuel with
    | zero => cases h
    | succ fuel =>
      obtain ⟨e, es, he, hne⟩ := hd.escape_starts c
      have hchar := hd.readChar_escape c (cs.flatMap d.style.escape ++ d.style.quote :: rest)
      rw [List.flatMap_cons, List.append_assoc, readChars, if_neg (by simp [he, hne]), hchar]
      simp [ih (by simpa using h)]

theorem length_le_flatMap_escape (hd : d.Lawful) (cs : List Char) :
    cs.length ≤ (cs.flatMap d.style.escape).length := by
  induction cs with
  | nil => exact Nat.le_refl _
  | cons c cs ih =>
    obtain ⟨e, es, he, -⟩ := hd.escape_starts c
    simp only [List.flatMap_cons, List.length_append, List.length_cons, he]
    omega

theorem readText_quoted (hd : d.Lawful) (s : String) (rest : List Char) :
    d.readText (d.style.quoted s ++ rest) = some (s, rest) := by
  have hlength := length_le_flatMap_escape hd s.toList
  simp only [Style.quoted, List.cons_append, List.append_assoc, List.nil_append, readText,
    List.head?_cons, if_true, List.drop_one, List.tail_cons]
  rw [readChars_flatMap hd (by simp only [List.length_cons, List.length_append]; omega)]
  simp

/-! ### Items -/

section Items

variable {α β : Type} {item : List Char → Option (β × List Char)} {text : α → List Char} {value : α → β}
  {close : Char} {gap : List Char}

/-- A reader that takes back the texts of some items, after blanks. -/
def TakesBack (item : List Char → Option (β × List Char)) (text : α → List Char) (value : α → β)
    (x : α) : Prop :=
  ∀ {gap rest}, Blank gap → Ends rest → item (gap ++ (text x ++ rest)) = some (value x, rest)

theorem readSequence_intercalate (hclose : isSpace close = false ∧ close ≠ ',' ∧ continues close = false)
    (hgap : Blank gap) {xs : List α} (hitem : ∀ x ∈ xs, TakesBack item text value x) (hne : xs ≠ [])
    {fuel : Nat} (hfuel : xs.length ≤ fuel) {before : List Char} (hbefore : Blank before)
    (rest : List Char) :
    readSequence item close fuel (before ++ ((',' :: gap).intercalate (xs.map text) ++ close :: rest)) =
      some (xs.map value, rest) := by
  induction xs generalizing fuel before with
  | nil => exact absurd rfl hne
  | cons x xs ih =>
    obtain ⟨hx, hxs⟩ := List.forall_mem_cons.1 hitem
    cases fuel with
    | zero => cases hfuel
    | succ fuel =>
      cases xs with
      | nil =>
        rw [List.map_singleton, List.intercalate_singleton, readSequence,
          hx hbefore (.cons hclose.2.2 rest)]
        simp [skip_firm hclose.1]
      | cons y ys =>
        have hcomma : isSpace ',' = false := by decide
        have hends : ∀ cs, Ends (',' :: cs) := .cons (by decide)
        have hrest := ih hxs (List.cons_ne_nil _ _) (by simpa using hfuel) hgap
        simp only [List.map_cons, List.intercalate_cons_cons, List.append_assoc, List.cons_append,
          readSequence] at hrest ⊢
        rw [hx hbefore (hends _)]
        simp [skip_firm hcomma, hclose.2.1.symm, hrest]

theorem length_le_length_intercalate {sep : List Char} {texts : List (List Char)}
    (h : ∀ cs ∈ texts, cs ≠ []) : texts.length ≤ (sep.intercalate texts).length := by
  induction texts with
  | nil => exact Nat.zero_le _
  | cons cs texts ih =>
    obtain ⟨hcs, htexts⟩ := List.forall_mem_cons.1 h
    have hpos := List.length_pos_iff.2 hcs
    have hrest := ih htexts
    cases texts with
    | nil => rwa [List.intercalate_singleton]
    | cons cs' texts =>
      rw [List.intercalate_cons_cons, List.length_append, List.length_append, List.length_cons]
      omega

theorem readItems_intercalate (hclose : isSpace close = false ∧ close ≠ ',' ∧ continues close = false)
    (hgap : Blank gap) {xs : List α} (hitem : ∀ x ∈ xs, TakesBack item text value x)
    (hstarts : ∀ x ∈ xs, ∃ c cs, text x = c :: cs ∧ isSpace c = false ∧ c ≠ close) (rest : List Char) :
    readItems item close ((',' :: gap).intercalate (xs.map text) ++ close :: rest) =
      some (xs.map value, rest) := by
  cases hxs : xs with
  | nil => simp [readItems, skip_firm hclose.1]
  | cons x ys =>
    rw [← hxs]
    have hne : xs ≠ [] := hxs ▸ List.cons_ne_nil _ _
    have hfirst : ∃ c cs, (',' :: gap).intercalate (xs.map text) ++ close :: rest = c :: cs ∧
        isSpace c = false ∧ c ≠ close := by
      obtain ⟨c, cs, hc, hfirm⟩ := hstarts x (hxs ▸ List.mem_cons_self)
      rw [hxs]
      cases ys with
      | nil => exact ⟨c, _, by rw [List.map_singleton, List.intercalate_singleton, hc]; rfl, hfirm⟩
      | cons y ys =>
        exact ⟨c, _, by rw [List.map_cons, List.map_cons, List.intercalate_cons_cons, hc]; rfl, hfirm⟩
    have hlength : xs.length ≤ ((',' :: gap).intercalate (xs.map text)).length := by
      have htexts : ∀ cs ∈ xs.map text, cs ≠ [] := by
        intro cs hcs
        obtain ⟨x, hx, rfl⟩ := List.mem_map.1 hcs
        obtain ⟨c, cs, hc, -⟩ := hstarts x hx
        exact hc ▸ List.cons_ne_nil _ _
      simpa using length_le_length_intercalate htexts
    obtain ⟨c, cs, hcs, hspace, hother⟩ := hfirst
    have hfuel : xs.length ≤ (c :: cs).length + 1 := by
      rw [← hcs, List.length_append]
      omega
    have hread := readSequence_intercalate hclose hgap hitem hne hfuel .nil rest
    rw [List.nil_append, hcs] at hread
    rw [hcs, readItems]
    simpa only [skip_firm hspace, List.head?_cons, Option.some.injEq, hother, if_false] using hread

end Items

/-! ### Scalars -/

theorem readWord_append {α : Type} (word : List Char) (meaning : α) (rest : List Char) :
    readWord word meaning (word ++ rest) = some (meaning, rest) := by
  rw [readWord, if_pos (List.isPrefixOf_iff_prefix.2 (List.prefix_append word rest)), List.drop_left]

/-- A word is not found where something else begins. -/
theorem readWord_eq_none {α : Type} {word cs : List Char} {meaning : α}
    (hword : word.head?.any isMark = true) (h : word.head? ≠ cs.head?) : readWord word meaning cs = none := by
  rw [readWord, if_neg]
  intro hprefix
  obtain ⟨rest, rfl⟩ := List.isPrefixOf_iff_prefix.1 hprefix
  cases word with
  | nil => cases hword
  | cons c word => exact h rfl

theorem readText_eq_none {cs : List Char} (h : cs.head? ≠ some d.style.quote) : d.readText cs = none := by
  rw [readText, if_neg h]

theorem cons_of_isMark {word : List Char} (h : word.head?.any isMark = true) :
    ∃ c cs, word = c :: cs ∧ isMark c = true := by
  cases word with
  | nil => cases h
  | cons c cs => exact ⟨c, cs, rfl, h⟩

theorem head?_append_of_isMark {word : List Char} (h : word.head?.any isMark = true) (rest : List Char) :
    (word ++ rest).head? = word.head? := by
  obtain ⟨c, cs, rfl, -⟩ := cons_of_isMark h
  rfl

variable {ν : Type} {number : ν → List Char}

/-- A document without brackets is read back. -/
theorem readScalar_write (hd : d.Lawful) {t : Tree ν} (hflat : t.height = 0)
    (hnumber : ∀ n ∈ t.numbers, IsToken (number n)) {rest : List Char} (hrest : Ends rest) :
    d.readScalar (d.style.write number t ++ rest) = some (t.map (String.ofList ∘ number), rest) := by
  have hnodup := hd.marks_nodup
  simp only [List.nodup_cons, List.mem_cons, List.not_mem_nil, or_false, not_or] at hnodup
  obtain ⟨⟨hnullYes, hnullNo, hnullQuote⟩, ⟨hyesNo, hyesQuote⟩, hnoQuote, -⟩ := hnodup
  -- A word is not found where what is written begins with another character.
  have hskip : ∀ {word cs : List Char} {meaning : Tree String}, word.head?.any isMark = true →
      word.head? ≠ cs.head? → readWord word meaning cs = none := readWord_eq_none
  cases t with
  | null => simp [readScalar, Style.write, Tree.map, readWord_append]
  | bool b =>
    cases b with
    | true =>
      have hhead := head?_append_of_isMark hd.yes_isMark rest
      simp [readScalar, Style.write, Tree.map, readWord_append, hskip hd.null_isMark (hhead ▸ hnullYes)]
    | false =>
      have hhead := head?_append_of_isMark hd.no_isMark rest
      simp [readScalar, Style.write, Tree.map, readWord_append, hskip hd.null_isMark (hhead ▸ hnullNo),
        hskip hd.yes_isMark (hhead ▸ hyesNo)]
  | str s =>
    have hhead : (d.style.quoted s ++ rest).head? = some d.style.quote := rfl
    simp [readScalar, Style.write, Tree.map, readText_quoted hd, hskip hd.null_isMark (hhead ▸ hnullQuote),
      hskip hd.yes_isMark (hhead ▸ hyesQuote), hskip hd.no_isMark (hhead ▸ hnoQuote)]
  | num n =>
    have htoken : IsToken (number n) := hnumber n List.mem_cons_self
    obtain ⟨c, cs, hcs, hc⟩ := htoken.starts
    have hhead : ∀ {mark : Option Char}, mark.any isMark = true → mark ≠ (number n ++ rest).head? := by
      rintro mark hmark rfl
      rw [hcs] at hmark
      rcases hc with rfl | hc
      · cases hmark
      · have hdigit := (isMark_iff.1 hmark).2.1
        rw [hdigit] at hc
        cases hc
    have hquote := readText_eq_none (@hhead (some d.style.quote) hd.quote_isMark).symm
    simp [readScalar, Style.write, Tree.map, htoken.reads rest hrest, hquote,
      hskip hd.null_isMark (hhead hd.null_isMark), hskip hd.yes_isMark (hhead hd.yes_isMark),
      hskip hd.no_isMark (hhead hd.no_isMark)]
  | arr items => cases hflat
  | obj members => cases hflat

/-! ### Values -/

theorem firm_of_isMark {c : Char} (h : isMark c = true) :
    isSpace c = false ∧ c ≠ '[' ∧ c ≠ ']' ∧ c ≠ '{' ∧ c ≠ '}' := by
  obtain ⟨h1, -, -, h2, h3, h4, h5⟩ := isMark_iff.1 h
  exact ⟨h1, h2, h3, h4, h5⟩

theorem firm_of_isDigit {c : Char} (h : c = '-' ∨ c.isDigit = true) :
    isSpace c = false ∧ c ≠ '[' ∧ c ≠ ']' ∧ c ≠ '{' ∧ c ≠ '}' := by
  rcases h with rfl | h
  · decide
  · have hne : ∀ d : Char, d.isDigit = false → c ≠ d := by
      rintro d hd rfl
      rw [hd] at h
      cases h
    refine ⟨?_, hne _ (by decide), hne _ (by decide), hne _ (by decide), hne _ (by decide)⟩
    simp [isSpace, hne ' ' (by decide), hne '\n' (by decide), hne '\r' (by decide), hne '\t' (by decide)]

/-- What is written for a document without brackets begins with no bracket. -/
theorem write_flat_starts (hd : d.Lawful) {t : Tree ν} (hflat : t.height = 0)
    (hnumber : ∀ n ∈ t.numbers, IsToken (number n)) :
    ∃ c cs, d.style.write number t = c :: cs ∧
      isSpace c = false ∧ c ≠ '[' ∧ c ≠ ']' ∧ c ≠ '{' ∧ c ≠ '}' := by
  have hword : ∀ {word : List Char}, word.head?.any isMark = true → ∃ c cs, word = c :: cs ∧
      isSpace c = false ∧ c ≠ '[' ∧ c ≠ ']' ∧ c ≠ '{' ∧ c ≠ '}' := by
    intro word h
    obtain ⟨c, cs, rfl, hc⟩ := cons_of_isMark h
    exact ⟨c, cs, rfl, firm_of_isMark hc⟩
  cases t with
  | null => exact hword hd.null_isMark
  | bool b =>
    cases b with
    | true => exact hword hd.yes_isMark
    | false => exact hword hd.no_isMark
  | str s => exact @hword (d.style.quoted s) hd.quote_isMark
  | num n =>
    obtain ⟨c, cs, hcs, hc⟩ := (hnumber n List.mem_cons_self).starts
    exact ⟨c, cs, hcs, firm_of_isDigit hc⟩
  | arr items => cases hflat
  | obj members => cases hflat

theorem readValue_scalar (d : Dialect) (depth : Nat) {gap : List Char} (hgap : Blank gap) {c : Char}
    (hspace : isSpace c = false) (hlist : c ≠ '[') (hobject : c ≠ '{') (cs : List Char) :
    d.readValue depth (gap ++ c :: cs) = d.readScalar (c :: cs) := by
  cases depth with
  | zero => rw [readValue, skip_blank hgap hspace]
  | succ depth =>
    rw [readValue, skip_blank hgap hspace]
    split
    next h => cases h; exact absurd rfl hlist
    next h => cases h; exact absurd rfl hobject
    next => rfl

/-- A member is read back if its value is. -/
theorem takesBack_writeMember (hd : d.Lawful) {value : List Char → Option (Tree String × List Char)}
    {p : String × Tree ν}
    (hvalue : TakesBack value (d.style.write number) (Tree.map (String.ofList ∘ number)) p.2) :
    TakesBack (d.readMember value) (d.style.writeMember number)
      (fun p => (p.1, p.2.map (String.ofList ∘ number))) p := by
  intro gap rest hgap hrest
  obtain ⟨after, hcolon, hafter⟩ := hd.colon
  have hkey := readText_quoted hd p.1 (d.style.colon ++ (d.style.write number p.2 ++ rest))
  have hskip : skip (gap ++ (d.style.writeMember number p ++ rest)) =
      d.style.quoted p.1 ++ (d.style.colon ++ (d.style.write number p.2 ++ rest)) := by
    rw [Style.writeMember, List.append_assoc, List.append_assoc]
    exact skip_blank hgap (firm_of_isMark hd.quote_isMark).1 _
  have hskipColon : skip (d.style.colon ++ (d.style.write number p.2 ++ rest)) =
      ':' :: (after ++ (d.style.write number p.2 ++ rest)) := by
    rw [hcolon]
    exact skip_firm (by decide) _
  simp [readMember, hskip, hkey, hskipColon, hvalue hafter hrest]

/-- A document without brackets is read back at every depth. -/
theorem takesBack_flat (hd : d.Lawful) (depth : Nat) {t : Tree ν} (hflat : t.height = 0)
    (hnumber : ∀ n ∈ t.numbers, IsToken (number n)) :
    TakesBack (d.readValue depth) (d.style.write number) (Tree.map (String.ofList ∘ number)) t := by
  intro gap rest hgap hrest
  obtain ⟨c, cs, hcs, hspace, hlist, -, hobject, -⟩ := write_flat_starts hd hflat hnumber
  have hread := readScalar_write hd hflat hnumber hrest
  rw [hcs] at hread ⊢
  rw [List.cons_append, readValue_scalar d depth hgap hspace hlist hobject]
  exact hread

/-- What is written for a document begins with no closing bracket. -/
theorem write_starts (hd : d.Lawful) {t : Tree ν} (hnumber : ∀ n ∈ t.numbers, IsToken (number n)) :
    ∃ c cs, d.style.write number t = c :: cs ∧ isSpace c = false ∧ c ≠ ']' := by
  have hscalar : t.height = 0 → ∃ c cs, d.style.write number t = c :: cs ∧ isSpace c = false ∧ c ≠ ']' := by
    intro hflat
    obtain ⟨c, cs, hcs, hspace, -, hclose, -⟩ := write_flat_starts hd hflat hnumber
    exact ⟨c, cs, hcs, hspace, hclose⟩
  cases t with
  | arr | obj => exact ⟨_, _, rfl, by decide, by decide⟩
  | null | bool | num | str => exact hscalar rfl

/-- **What is written for a document is read back**, up to what follows it. -/
theorem readValue_write (hd : d.Lawful) {depth : Nat} {t : Tree ν} (hdepth : t.height ≤ depth)
    (hnumber : ∀ n ∈ t.numbers, IsToken (number n)) :
    TakesBack (d.readValue depth) (d.style.write number) (Tree.map (String.ofList ∘ number)) t := by
  induction depth generalizing t with
  | zero => exact takesBack_flat hd 0 (Nat.le_zero.1 hdepth) hnumber
  | succ depth ih =>
    obtain ⟨sep, hcomma, hsep⟩ := hd.comma
    cases t with
    | null | bool | num | str => exact takesBack_flat hd (depth + 1) rfl hnumber
    | arr items =>
      intro gap rest hgap hrest
      have hinside : ∀ t ∈ items, t.height ≤ depth ∧ ∀ n ∈ t.numbers, IsToken (number n) := fun t ht =>
        ⟨Nat.le_trans (Tree.height_le_items ht) (Nat.le_of_succ_le_succ hdepth),
          fun n hn => hnumber n (Tree.numbers_subset_items ht hn)⟩
      have hclose : isSpace ']' = false ∧ ']' ≠ ',' ∧ continues ']' = false := by decide
      have hread := readItems_intercalate hclose hsep
        (fun t ht => ih (hinside t ht).1 (hinside t ht).2)
        (fun t ht => write_starts hd (hinside t ht).2) rest
      have hskip : skip (gap ++ (d.style.write number (.arr items) ++ rest)) =
          '[' :: ((',' :: sep).intercalate (items.map (d.style.write number)) ++ ']' :: rest) := by
        rw [Style.write, Style.writeItems_eq_intercalate, hcomma, List.cons_append, List.append_assoc]
        exact skip_blank hgap (by decide) _
      simp [readValue, hskip, hread, Tree.map, Tree.mapItems_eq_map]
    | obj members =>
      intro gap rest hgap hrest
      have hinside : ∀ p ∈ members, p.2.height ≤ depth ∧ ∀ n ∈ p.2.numbers, IsToken (number n) := fun p hp =>
        ⟨Nat.le_trans (Tree.height_le_members hp) (Nat.le_of_succ_le_succ hdepth),
          fun n hn => hnumber n (Tree.numbers_subset_members hp hn)⟩
      have hquote := firm_of_isMark hd.quote_isMark
      have hclose : isSpace '}' = false ∧ '}' ≠ ',' ∧ continues '}' = false := by decide
      have hread := readItems_intercalate hclose hsep
        (fun p hp => takesBack_writeMember hd (ih (hinside p hp).1 (hinside p hp).2))
        (fun p _ => ⟨d.style.quote, _, rfl, hquote.1, hquote.2.2.2.2⟩) rest
      have hskip : skip (gap ++ (d.style.write number (.obj members) ++ rest)) =
          '{' :: ((',' :: sep).intercalate (members.map (d.style.writeMember number)) ++ '}' :: rest) := by
        rw [Style.write, Style.writeMembers_eq_intercalate, hcomma, List.cons_append, List.append_assoc]
        exact skip_blank hgap (by decide) _
      simp [readValue, hskip, hread, Tree.map, Tree.mapMembers_eq_map]

end Dialect

end Json

end FlowScript
