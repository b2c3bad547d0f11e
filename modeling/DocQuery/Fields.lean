/-
  Ordered fields: lists of keys and values in which order shows.

  `insert` replaces a value in place and appends a new key at the end, so a list built by it
  holds every key once, in the order of first insertion.

  Nothing keeps a list that was not built by `insert` from holding a key twice.  Then the first
  one counts: it is the one that is found and replaced.  The lemmas are stated for lists of any
  kind where they hold for any; the others say that the keys are distinct.
-/

namespace DocQuery

/-- Keys and values in order. -/
abbrev Fields (α : Type) := List (String × α)

namespace Fields

variable {α : Type}

/-- The value under a key. -/
def get? : Fields α → String → Option α
  | [], _ => none
  | (k, v) :: rest, key => if k = key then some v else get? rest key

/-- Replace the value under a key in place, or append the field. -/
def insert : Fields α → String → α → Fields α
  | [], key, value => [(key, value)]
  | (k, v) :: rest, key, value =>
    if k = key then (k, value) :: rest else (k, v) :: insert rest key value

/-- Drop the field of a key. -/
def erase (fs : Fields α) (key : String) : Fields α :=
  fs.filter fun f => f.1 ≠ key

/-- Insert fields one by one: a repeated key keeps its first place and takes the last value. -/
def ofList (fields : List (String × α)) : Fields α :=
  fields.foldl (fun fs f => insert fs f.1 f.2) []

/-- A key that is inserted is found with its value. -/
@[simp] theorem get?_insert_self (fs : Fields α) (key : String) (v : α) :
    (fs.insert key v).get? key = some v := by
  induction fs with
  | nil => simp [insert, get?]
  | cons f rest ih =>
    obtain ⟨k, w⟩ := f
    by_cases h : k = key <;> simp [insert, get?, h, ih]

/-- Other keys are found as before an insertion. -/
theorem get?_insert_of_ne (fs : Fields α) {key other : String} (h : other ≠ key) (v : α) :
    (fs.insert key v).get? other = fs.get? other := by
  induction fs with
  | nil => simp [insert, get?, Ne.symm h]
  | cons f rest ih =>
    obtain ⟨k, w⟩ := f
    by_cases hk : k = key
    · subst hk
      simp [insert, get?, Ne.symm h]
    · by_cases ho : k = other
      · subst ho
        simp [insert, get?, hk]
      · simp [insert, get?, hk, ho, ih]

/-- A key that is erased is not found, however often it was there. -/
theorem get?_erase_self (fs : Fields α) (key : String) : (fs.erase key).get? key = none := by
  induction fs with
  | nil => rfl
  | cons f rest ih =>
    obtain ⟨k, w⟩ := f
    by_cases hk : k = key
    · simpa [erase, hk] using ih
    · simpa [erase, hk, get?] using ih

/-- Other keys are found as before an erasure. -/
theorem get?_erase_of_ne (fs : Fields α) {key other : String} (h : other ≠ key) :
    (fs.erase key).get? other = fs.get? other := by
  induction fs with
  | nil => rfl
  | cons f rest ih =>
    obtain ⟨k, w⟩ := f
    by_cases hk : k = key
    · subst hk
      simpa [erase, get?, Ne.symm h] using ih
    · by_cases ho : k = other
      · subst ho
        simp [erase, get?, hk]
      · simpa [erase, get?, hk, ho] using ih

/-- What is found under a key is a field of it. -/
theorem mem_of_get? {fs : Fields α} {key : String} {v : α} (h : fs.get? key = some v) :
    (key, v) ∈ fs := by
  induction fs with
  | nil => cases h
  | cons f rest ih =>
    obtain ⟨k, w⟩ := f
    rw [get?] at h
    split at h
    · rename_i hk
      rw [hk, Option.some.inj h]
      exact List.mem_cons_self
    · exact List.mem_cons_of_mem _ (ih h)

/-- Nothing is found under a key exactly if no field has it. -/
theorem get?_eq_none_iff {fs : Fields α} {key : String} :
    fs.get? key = none ↔ key ∉ fs.map Prod.fst := by
  induction fs with
  | nil => simp [get?]
  | cons f rest ih =>
    obtain ⟨k, w⟩ := f
    by_cases hk : k = key
    · simp [get?, hk]
    · simp [get?, hk, Ne.symm hk, ih]

/-- A new key goes behind all others. -/
theorem insert_of_not_mem {fs : Fields α} {key : String} (h : key ∉ fs.map Prod.fst) (v : α) :
    fs.insert key v = fs ++ [(key, v)] := by
  induction fs with
  | nil => rfl
  | cons f rest ih =>
    obtain ⟨k, w⟩ := f
    obtain ⟨hk, hrest⟩ : ¬ key = k ∧ key ∉ rest.map Prod.fst := by simpa using h
    rw [insert, if_neg (Ne.symm hk), ih hrest]
    rfl

/-- Of two values under a key the later stays. -/
theorem insert_insert (fs : Fields α) (key : String) (v w : α) :
    (fs.insert key v).insert key w = fs.insert key w := by
  induction fs with
  | nil => simp [insert]
  | cons f rest ih =>
    obtain ⟨k, u⟩ := f
    by_cases hk : k = key <;> simp [insert, hk, ih]

/-- The value that is there already changes nothing. -/
theorem insert_of_get? {fs : Fields α} {key : String} {v : α} (h : fs.get? key = some v) :
    fs.insert key v = fs := by
  induction fs with
  | nil => cases h
  | cons f rest ih =>
    obtain ⟨k, w⟩ := f
    rw [get?] at h
    rw [insert]
    split at h
    · rename_i hk
      rw [if_pos hk, hk, Option.some.inj h]
    · rename_i hk
      rw [if_neg hk, ih h]

/-! The field of a key, with the fields on either side of it. -/

section Middle

variable {before behind : Fields α} {key : String}

theorem get?_middle (h : key ∉ before.map Prod.fst) (w : α) :
    get? (before ++ (key, w) :: behind) key = some w := by
  induction before with
  | nil => simp [get?]
  | cons f rest ih =>
    obtain ⟨k, u⟩ := f
    obtain ⟨hk, hrest⟩ : ¬ key = k ∧ key ∉ rest.map Prod.fst := by simpa using h
    rw [List.cons_append, get?, if_neg (Ne.symm hk), ih hrest]

/-- A key that is there takes its value in place. -/
theorem insert_middle (h : key ∉ before.map Prod.fst) (w v : α) :
    insert (before ++ (key, w) :: behind) key v = before ++ (key, v) :: behind := by
  induction before with
  | nil => simp [insert]
  | cons f rest ih =>
    obtain ⟨k, u⟩ := f
    obtain ⟨hk, hrest⟩ : ¬ key = k ∧ key ∉ rest.map Prod.fst := by simpa using h
    rw [List.cons_append, insert, if_neg (Ne.symm hk), ih hrest, List.cons_append]

/-- A key that is there once is taken out, and the fields around it stay. -/
theorem erase_middle (h : key ∉ before.map Prod.fst) (h' : key ∉ behind.map Prod.fst) (w : α) :
    erase (before ++ (key, w) :: behind) key = before ++ behind := by
  have hkept : ∀ fs : Fields α, key ∉ fs.map Prod.fst → fs.erase key = fs := by
    intro fs hfs
    refine List.filter_eq_self.mpr fun f hf => decide_eq_true ?_
    rintro rfl
    exact hfs (List.mem_map_of_mem hf)
  have hsplit : erase (before ++ (key, w) :: behind) key
      = before.erase key ++ erase ((key, w) :: behind) key := List.filter_append _ _
  have hdrop : erase ((key, w) :: behind) key = behind.erase key := by
    simp [erase]
  rw [hsplit, hdrop, hkept before h, hkept behind h']

end Middle

end Fields

end DocQuery
