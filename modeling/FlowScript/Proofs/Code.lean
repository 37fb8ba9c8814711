/-
The code of a program: what is left of its text without comments and string
literals. A reader goes through the text character by character; its `Mode`
says what it is in, and `code` keeps what it reads as code. Of a comment the
sign is left, and of a string literal the first quote. The programs written
here have no regular expressions and no literals with code in them, so these
have no modes.
-/
import FlowScript.Target.Basic

namespace FlowScript.Code

/-- What a reader of a program is in. -/
inductive Mode where
  | code
  /-- After a slash that may begin a comment. -/
  | slash
  /-- In a comment up to the end of the line. -/
  | remark
  /-- In a comment between signs. -/
  | block
  /-- After a star in such a comment. -/
  | star
  /-- After a quote that may be the first of three. -/
  | opened (quote : Char)
  /-- After two quotes. -/
  | emptied (quote : Char)
  /-- In a string literal. -/
  | inside (quote : Char)
  /-- After a backslash in it. -/
  | escaped (quote : Char)
  /-- In a string literal between three quotes, after some of its last three. -/
  | tripled (quote : Char) (seen : Nat)
  /-- After a backslash in it. -/
  | tripledEscaped (quote : Char)
deriving DecidableEq, Repr

/-- Whether a character begins string literals. -/
def isQuote (target : Target) (c : Char) : Bool :=
  match target with
  | .desktop => c == '\'' || c == '"'
  | .browser => c == '\'' || c == '"' || c == Char.ofNat 0x60

/-- Whether a character ends the line for a comment. -/
def endsRemark (target : Target) (c : Char) : Bool :=
  match target with
  | .desktop => c == '\n' || c == '\r'
  | .browser => c == '\n' || c == '\r' || c == '\u2028' || c == '\u2029'

/-- What a character of code leads to. -/
def lead (target : Target) (c : Char) : Mode :=
  match target with
  | .desktop => if c = '#' then .remark else if isQuote .desktop c then .opened c else .code
  | .browser => if c = '/' then .slash else if isQuote .browser c then .inside c else .code

/-- What the reader is in after a character. -/
def next (target : Target) : Mode → Char → Mode
  | .code, c => lead target c
  | .slash, c => if c = '/' then .remark else if c = '*' then .block else lead target c
  | .remark, c => if endsRemark target c then .code else .remark
  | .block, c => if c = '*' then .star else .block
  | .star, c => if c = '/' then .code else if c = '*' then .star else .block
  | .opened q, c => if c = q then .emptied q else if c = '\\' then .escaped q else .inside q
  | .emptied q, c => if c = q then .tripled q 0 else lead target c
  | .inside q, c => if c = q then .code else if c = '\\' then .escaped q else .inside q
  | .escaped q, _ => .inside q
  | .tripled q seen, c =>
    if c = q then if seen = 2 then .code else .tripled q (seen + 1)
    else if c = '\\' then .tripledEscaped q else .tripled q 0
  | .tripledEscaped q, _ => .tripled q 0

/-- Whether the reader takes a character as code. -/
def keeps (target : Target) : Mode → Char → Bool
  | .code, _ => true
  | .slash, c => c != '/' && c != '*'
  | .remark, c => endsRemark target c
  | .emptied q, c => c != q
  | _, _ => false

/-- The code of a text that is read from some mode on. -/
def code (target : Target) : Mode → List Char → List Char
  | _, [] => []
  | m, c :: cs =>
    if keeps target m c then c :: code target (next target m c) cs else code target (next target m c) cs

/-- What the reader is in after a text. -/
def after (target : Target) (m : Mode) (cs : List Char) : Mode := cs.foldl (next target) m

variable {target : Target}

@[simp] theorem code_nil (m : Mode) : code target m [] = [] := rfl

@[simp] theorem after_cons (m : Mode) (c : Char) (cs : List Char) :
    after target m (c :: cs) = after target (next target m c) cs := rfl

theorem code_cons_of_keeps {m : Mode} {c : Char} (h : keeps target m c = true) (cs : List Char) :
    code target m (c :: cs) = c :: code target (next target m c) cs := by
  rw [code, if_pos h]

theorem code_cons_of_drops {m : Mode} {c : Char} (h : keeps target m c = false) (cs : List Char) :
    code target m (c :: cs) = code target (next target m c) cs := by
  rw [code, if_neg (by simp [h])]

@[simp] theorem code_code_cons (c : Char) (cs : List Char) :
    code target .code (c :: cs) = c :: code target (lead target c) cs := rfl

theorem code_append (m : Mode) (a b : List Char) :
    code target m (a ++ b) = code target m a ++ code target (after target m a) b := by
  induction a generalizing m with
  | nil => rfl
  | cons c a ih =>
    rw [List.cons_append, after_cons]
    cases h : keeps target m c with
    | true => rw [code_cons_of_keeps h, code_cons_of_keeps h, ih, List.cons_append]
    | false => rw [code_cons_of_drops h, code_cons_of_drops h, ih]

theorem mem_of_mem_code {m : Mode} {c : Char} {cs : List Char} (h : c ∈ code target m cs) : c ∈ cs := by
  induction cs generalizing m with
  | nil => exact h
  | cons d cs ih =>
    cases hk : keeps target m d with
    | true =>
      rw [code_cons_of_keeps hk] at h
      rcases List.mem_cons.1 h with rfl | h
      · exact List.mem_cons_self
      · exact List.mem_cons_of_mem _ (ih h)
    | false =>
      rw [code_cons_of_drops hk] at h
      exact List.mem_cons_of_mem _ (ih h)

/-! ## Texts that are code of their own -/

/-- A text does not begin with a quote, which could go on with a literal before it. -/
def NoQuote (target : Target) (cs : List Char) : Prop := ∀ c ∈ cs.head?, isQuote target c = false

/-- A text that begins in code and ends there. -/
def Settled (target : Target) (cs : List Char) : Prop :=
  ∀ tail, NoQuote target tail →
    code target .code (cs ++ tail) = code target .code cs ++ code target .code tail

/-- A character that is code and leads to code. -/
def isPlain (target : Target) (c : Char) : Bool := lead target c == .code

theorem code_plain_cons {c : Char} (h : isPlain target c = true) (cs : List Char) :
    code target .code (c :: cs) = c :: code target .code cs := by
  rw [code_code_cons, eq_of_beq h]

theorem code_plain_append {cs : List Char} (h : cs.all (isPlain target) = true) (tail : List Char) :
    code target .code (cs ++ tail) = cs ++ code target .code tail := by
  induction cs with
  | nil => rfl
  | cons c cs ih =>
    rw [List.all_cons, Bool.and_eq_true] at h
    rw [List.cons_append, code_plain_cons h.1, ih h.2, List.cons_append]

theorem code_plain {cs : List Char} (h : cs.all (isPlain target) = true) :
    code target .code cs = cs := by
  simpa using code_plain_append h []

theorem Settled.nil : Settled target [] := fun _ _ => rfl

theorem Settled.plain_append {a b : List Char} (ha : a.all (isPlain target) = true)
    (hb : Settled target b) : Settled target (a ++ b) := by
  intro tail ht
  rw [List.append_assoc, code_plain_append ha, code_plain_append ha, hb tail ht, List.append_assoc]

theorem Settled.append {a b : List Char} (ha : Settled target a) (hb : Settled target b)
    (hq : b ≠ [] ∧ NoQuote target b) : Settled target (a ++ b) := by
  intro tail ht
  have hbt : NoQuote target (b ++ tail) := by
    obtain ⟨c, cs, rfl⟩ := List.exists_cons_of_ne_nil hq.1
    exact hq.2
  rw [List.append_assoc, ha _ hbt, hb tail ht, ha b hq.2, List.append_assoc]

end FlowScript.Code
