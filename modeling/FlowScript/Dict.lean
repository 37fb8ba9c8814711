/-
Tables of values by text key, as lists of pairs. `insert` replaces what a key
had, and `get?_insert_self` and `get?_insert_of_ne` say what can be found
afterwards. A table is `Sorted` if its pairs stand in increasing order of the
key. The empty table is sorted and `insert` keeps it so; `sorted_ofList` says
that the table of any pairs is.
-/
namespace FlowScript

/-- A table: its pairs, of which the first with a key counts. -/
abbrev Dict (α : Type) := List (String × α)

namespace Dict

variable {α : Type}

def get? (d : Dict α) (key : String) : Option α := List.lookup key d

/-- The table with `value` at `key`, in place of any value that was there. -/
def insert (d : Dict α) (key : String) (value : α) : Dict α :=
  match d with
  | [] => [(key, value)]
  | (k, v) :: rest =>
    if key = k then (key, value) :: rest
    else if key < k then (key, value) :: (k, v) :: rest
    else (k, v) :: insert rest key value

/-- All pairs of `pairs` added in turn, so that the last of one key stays. -/
def insertAll (d : Dict α) (pairs : List (String × α)) : Dict α :=
  pairs.foldl (fun d p => d.insert p.1 p.2) d

/-- The table of a list of pairs; the last of one key stays. -/
def ofList (pairs : List (String × α)) : Dict α := insertAll [] pairs

def keys (d : Dict α) : List String := d.map (·.1)

def contains (d : Dict α) (key : String) : Bool := (d.get? key).isSome

/-- Whether the pairs stand in increasing order of the key, so that no key stands twice. -/
def Sorted (d : Dict α) : Prop := d.Pairwise fun p q => p.1 < q.1

@[simp] theorem get?_nil (key : String) : get? ([] : Dict α) key = none := rfl

theorem get?_cons (k : String) (v : α) (d : Dict α) (key : String) :
    get? ((k, v) :: d) key = if key = k then some v else get? d key := by
  unfold get?
  by_cases h : key = k
  · simp [h]
  · have hb : (key == k) = false := beq_eq_false_iff_ne.2 h
    rw [List.lookup_cons, hb, if_neg h]

theorem mem_of_get? {d : Dict α} {key : String} {value : α} (h : d.get? key = some value) : (key, value) ∈ d := by
  induction d with
  | nil => cases h
  | cons p d ih =>
    obtain ⟨k, v⟩ := p
    rw [get?_cons] at h
    split at h
    next heq =>
      cases h
      exact heq ▸ List.mem_cons_self
    next => exact List.mem_cons_of_mem _ (ih h)

@[simp] theorem get?_insert_self (d : Dict α) (key : String) (value : α) :
    (d.insert key value).get? key = some value := by
  induction d with
  | nil => simp [insert, get?_cons]
  | cons p d ih =>
    obtain ⟨k, v⟩ := p
    by_cases hk : key = k
    · simp [insert, get?_cons, hk]
    · by_cases hlt : key < k <;> simp [insert, get?_cons, hk, hlt, ih]

theorem get?_insert_of_ne (d : Dict α) {key other : String} (value : α) (h : other ≠ key) :
    (d.insert key value).get? other = d.get? other := by
  induction d with
  | nil => simp [insert, get?_cons, h]
  | cons p d ih =>
    obtain ⟨k, v⟩ := p
    by_cases hk : key = k
    · subst hk; simp [insert, get?_cons, h]
    · by_cases hlt : key < k
      · simp [insert, get?_cons, hk, hlt, h]
      · simp [insert, get?_cons, hk, hlt, ih]

/-- Writing the same value twice is writing it once. -/
theorem insert_insert (d : Dict α) (key : String) (value : α) :
    (d.insert key value).insert key value = d.insert key value := by
  induction d with
  | nil => simp [insert]
  | cons p d ih =>
    obtain ⟨k, v⟩ := p
    by_cases hk : key = k
    · simp [insert, hk]
    · by_cases hlt : key < k <;> simp [insert, hk, hlt, ih]

/-! ## Several pairs -/

theorem mem_keys_insert (d : Dict α) (key : String) (value : α) {other : String} :
    other ∈ (d.insert key value).keys ↔ other = key ∨ other ∈ d.keys := by
  induction d with
  | nil => simp [insert, keys]
  | cons p d ih =>
    obtain ⟨k, v⟩ := p
    simp only [keys, List.map_cons, List.mem_cons] at ih ⊢
    by_cases hk : key = k
    · simp [insert, hk]
    · by_cases hlt : key < k
      · simp [insert, hk, hlt]
      · simp only [insert, hk, hlt, if_false, List.map_cons, List.mem_cons, ih]
        exact or_left_comm

theorem mem_insert {d : Dict α} {key : String} {value : α} {p : String × α} (h : p ∈ d.insert key value) :
    p = (key, value) ∨ p ∈ d := by
  induction d with
  | nil => exact .inl (List.mem_singleton.1 h)
  | cons q d ih =>
    rw [insert] at h
    split at h
    next => exact (List.mem_cons.1 h).imp_right (List.mem_cons_of_mem _)
    next =>
      split at h
      next => exact List.mem_cons.1 h
      next =>
        rcases List.mem_cons.1 h with rfl | h
        · exact .inr List.mem_cons_self
        · exact (ih h).imp_right (List.mem_cons_of_mem _)

theorem mem_of_mem_insertAll {d : Dict α} {pairs : List (String × α)} {p : String × α}
    (h : p ∈ d.insertAll pairs) : p ∈ d ∨ p ∈ pairs := by
  induction pairs generalizing d with
  | nil => exact .inl h
  | cons q pairs ih =>
    rcases ih (d := d.insert q.1 q.2) h with h | h
    · rcases mem_insert h with rfl | h
      · exact .inr List.mem_cons_self
      · exact .inl h
    · exact .inr (List.mem_cons_of_mem _ h)

theorem mem_of_mem_ofList {pairs : List (String × α)} {p : String × α} (h : p ∈ ofList pairs) : p ∈ pairs :=
  (mem_of_mem_insertAll h).resolve_left List.not_mem_nil

theorem length_insert_of_not_mem {d : Dict α} {key : String} (h : key ∉ d.keys) (value : α) :
    (d.insert key value).length = d.length + 1 := by
  induction d with
  | nil => rfl
  | cons p d ih =>
    obtain ⟨k, v⟩ := p
    simp only [keys, List.map_cons, List.mem_cons, not_or] at h ih
    by_cases hlt : key < k
    · simp [insert, h.1, hlt]
    · simp [insert, h.1, hlt, ih h.2]

theorem get?_insertAll_of_not_mem (d : Dict α) {pairs : List (String × α)} {key : String}
    (h : key ∉ pairs.map (·.1)) : (d.insertAll pairs).get? key = d.get? key := by
  induction pairs generalizing d with
  | nil => rfl
  | cons p pairs ih =>
    simp only [List.map_cons, List.mem_cons, not_or] at h
    exact (ih (d.insert p.1 p.2) h.2).trans (get?_insert_of_ne d p.2 h.1)

/-- Of pairs with distinct keys, each stays. -/
theorem get?_insertAll_of_mem (d : Dict α) {pairs : List (String × α)} (hn : (pairs.map (·.1)).Nodup)
    {key : String} {value : α} (h : (key, value) ∈ pairs) : (d.insertAll pairs).get? key = some value := by
  induction pairs generalizing d with
  | nil => cases h
  | cons p pairs ih =>
    rw [List.map_cons, List.nodup_cons] at hn
    rcases List.mem_cons.1 h with rfl | h
    · exact (get?_insertAll_of_not_mem (d.insert key value) hn.1).trans (get?_insert_self d key value)
    · exact ih (d.insert p.1 p.2) hn.2 h

theorem get?_ofList_eq_some_iff {pairs : List (String × α)} (hn : (pairs.map (·.1)).Nodup) {key : String}
    {value : α} : (ofList pairs).get? key = some value ↔ (key, value) ∈ pairs := by
  constructor
  · intro h
    exact mem_of_mem_ofList (mem_of_get? h)
  · exact get?_insertAll_of_mem [] hn

/-- What is added is found first, and what was there before otherwise. -/
theorem get?_insertAll_eq_or (d : Dict α) {pairs : List (String × α)} (hn : (pairs.map (·.1)).Nodup)
    (key : String) : (d.insertAll pairs).get? key = ((ofList pairs).get? key).or (d.get? key) := by
  by_cases hkey : key ∈ pairs.map (·.1)
  · obtain ⟨p, hp, rfl⟩ := List.mem_map.1 hkey
    rw [get?_insertAll_of_mem d hn hp, (get?_ofList_eq_some_iff hn).2 hp, Option.some_or]
  · rw [get?_insertAll_of_not_mem d hkey, ofList, get?_insertAll_of_not_mem [] hkey, get?_nil, Option.none_or]

theorem length_insertAll {d : Dict α} {pairs : List (String × α)} (hn : (pairs.map (·.1)).Nodup)
    (h : ∀ key ∈ pairs.map (·.1), key ∉ d.keys) : (d.insertAll pairs).length = d.length + pairs.length := by
  induction pairs generalizing d with
  | nil => rfl
  | cons p pairs ih =>
    simp only [List.map_cons, List.nodup_cons, List.mem_cons, forall_eq_or_imp] at hn h
    have hrest : ∀ key ∈ pairs.map (·.1), key ∉ (d.insert p.1 p.2).keys := by
      intro key hkey hmem
      rcases (mem_keys_insert d p.1 p.2).1 hmem with rfl | hmem
      · exact hn.1 hkey
      · exact h.2 key hkey hmem
    have hlength := ih hn.2 hrest
    rw [length_insert_of_not_mem h.1] at hlength
    rw [List.length_cons, ← Nat.add_assoc, Nat.add_right_comm]
    exact hlength

/-! ## Order -/

theorem sorted_nil : Sorted ([] : Dict α) := List.Pairwise.nil

theorem sorted_cons_iff {k : String} {v : α} {d : Dict α} :
    Sorted ((k, v) :: d) ↔ (∀ key ∈ d.keys, k < key) ∧ Sorted d := by
  rw [Sorted, List.pairwise_cons, keys, List.forall_mem_map]
  rfl

theorem Sorted.insert {d : Dict α} (h : d.Sorted) (key : String) (value : α) : (d.insert key value).Sorted := by
  induction d with
  | nil => exact sorted_cons_iff.2 ⟨nofun, sorted_nil⟩
  | cons p d ih =>
    obtain ⟨k, v⟩ := p
    obtain ⟨hk, hd⟩ := sorted_cons_iff.1 h
    rw [Dict.insert]
    split
    next heq =>
      subst heq
      exact sorted_cons_iff.2 ⟨hk, hd⟩
    next hne =>
      split
      next hlt =>
        have hkey : ∀ other ∈ keys ((k, v) :: d), key < other :=
          List.forall_mem_cons.2 ⟨hlt, fun other ho => String.lt_trans hlt (hk other ho)⟩
        exact sorted_cons_iff.2 ⟨hkey, h⟩
      next hlt =>
        have hgt : k < key := Std.lt_of_le_of_ne (String.not_lt.1 hlt) (Ne.symm hne)
        refine sorted_cons_iff.2 ⟨fun other ho => ?_, ih hd⟩
        rcases (mem_keys_insert d key value).1 ho with rfl | ho
        · exact hgt
        · exact hk other ho

theorem Sorted.insertAll {d : Dict α} (h : d.Sorted) (pairs : List (String × α)) : (d.insertAll pairs).Sorted := by
  induction pairs generalizing d with
  | nil => exact h
  | cons p pairs ih => exact ih (h.insert p.1 p.2)

theorem sorted_ofList (pairs : List (String × α)) : (ofList pairs).Sorted := sorted_nil.insertAll pairs

end Dict

end FlowScript
