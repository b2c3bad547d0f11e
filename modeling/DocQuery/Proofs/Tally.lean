/-
  What is written in a filter, and that reading keeps all of it.

  Reading a filter refuses keys that are unknown or repeated, and keeps whatever else stands in an
  object, sensible or not.  What stands there is counted twice, in the text and in what was read
  of it, and the counts agree.

  The count of a text knows nothing of reading: it goes through the JSON value key by key, and
  passes over what stands under null.  That the two counts agree is where it matters that no name
  is read twice, and that an array which stands for an object gives each key one place; otherwise
  a later part could take the place of an earlier one.

  1. `Tally`: what stands in an object of a filter, and in the objects below it;
  2. `operandsIn`, `KeepsGrammar` and `Uncrowded`: of a text, the operands that are written in it,
     whether each of its objects has a shape of the grammar, and whether none holds too much;
  3. `Filter.tally`: the same of what was read;
  4. `grows_of_readPart`: reading a key keeps what it holds, by induction on the value;
  5. `tally_of_ofJson?`: reading keeps everything.
-/
import DocQuery.Filter
import DocQuery.Proofs.Outcome

namespace DocQuery

namespace Filter

/-! ## Tallies -/

/-- What stands in an object: how many keys of each sort with something under them, and how many
operands, objects of a wrong shape, and objects that hold too much, in all. -/
structure Tally where
  combinators : Nat := 0
  fields : Nat := 0
  comparisons : Nat := 0
  operands : Nat := 0
  misshapen : Nat := 0
  crowded : Nat := 0
deriving DecidableEq, Repr

namespace Tally

/-- Both together. -/
def add (t u : Tally) : Tally where
  combinators := t.combinators + u.combinators
  fields := t.fields + u.fields
  comparisons := t.comparisons + u.comparisons
  operands := t.operands + u.operands
  misshapen := t.misshapen + u.misshapen
  crowded := t.crowded + u.crowded

instance : Add Tally := ⟨add⟩

@[simp] theorem combinators_add (t u : Tally) :
    (t + u).combinators = t.combinators + u.combinators := rfl

@[simp] theorem fields_add (t u : Tally) : (t + u).fields = t.fields + u.fields := rfl

@[simp] theorem comparisons_add (t u : Tally) :
    (t + u).comparisons = t.comparisons + u.comparisons := rfl

@[simp] theorem operands_add (t u : Tally) : (t + u).operands = t.operands + u.operands := rfl

@[simp] theorem misshapen_add (t u : Tally) : (t + u).misshapen = t.misshapen + u.misshapen := rfl

@[simp] theorem crowded_add (t u : Tally) : (t + u).crowded = t.crowded + u.crowded := rfl

theorem ext_iff' {t u : Tally} : t = u ↔ t.combinators = u.combinators ∧ t.fields = u.fields
    ∧ t.comparisons = u.comparisons ∧ t.operands = u.operands ∧ t.misshapen = u.misshapen
    ∧ t.crowded = u.crowded := by
  cases t
  cases u
  simp

/-- An empty tally adds nothing. -/
theorem zero_add (t : Tally) : ({} : Tally) + t = t := by
  simp [ext_iff']

theorem add_zero (t : Tally) : t + ({} : Tally) = t := by
  simp [ext_iff']

/-- Tallies may be added up in any grouping, so a text can be tallied part by part. -/
theorem add_assoc (t u v : Tally) : t + u + v = t + (u + v) := by
  simp [ext_iff', Nat.add_assoc]

/-- The shapes of the grammar: a combinator alone, or a field and one comparison. -/
def documented (t : Tally) : Bool :=
  (t.combinators == 1 && t.fields == 0 && t.comparisons == 0)
    || (t.combinators == 0 && t.fields == 1 && t.comparisons == 1)

/-- More than one operator, or a field beside a combinator. -/
def overfull (t : Tally) : Bool :=
  decide (1 < t.combinators + t.comparisons) || (t.combinators != 0 && t.fields != 0)

/-- What an object of which this is the tally adds to what is around it. -/
def closed (t : Tally) : Tally where
  operands := t.operands
  misshapen := t.misshapen + if t.documented then 0 else 1
  crowded := t.crowded + if t.overfull then 1 else 0

/-- What the filters under a combinator add, with the combinator itself. -/
def combinator (t : Tally) : Tally where
  operands := t.operands
  misshapen := t.misshapen
  crowded := t.crowded
  combinators := 1

end Tally

/-! ## Texts -/

/-- What a key adds that holds no filter. -/
def TestKey.tally : TestKey → Json → Tally
  | .field, _ => { fields := 1 }
  | .isNull, _ => { comparisons := 1 }
  | .oneOf, .arr xs => { comparisons := 1, operands := xs.length }
  | _, _ => { comparisons := 1, operands := 1 }

mutual

/-- What a key adds; with null under it, nothing. -/
def tallyPart (k : Key) : Json → Tally
  | .null => {}
  | .obj ms =>
    match k with
    | .test k => k.tally (.obj ms)
    | _ => (tallyMembers ms).closed.combinator
  | .arr xs =>
    match k with
    | .test k => k.tally (.arr xs)
    | .not => (tallyItems (keys.map Prod.snd) xs).closed.combinator
    | _ => (tallyList xs).combinator
  | j =>
    match k with
    | .test k => k.tally j
    | _ => { combinators := 1 }

/-- What stands in an object. -/
def tallyMembers : List (String × Json) → Tally
  | [] => {}
  | (name, j) :: ms =>
    (match Fields.get? keys name with
      | none => {}
      | some k => tallyPart k j) + tallyMembers ms

/-- What stands in an array that is read as an object. -/
def tallyItems (left : List Key) : List Json → Tally
  | [] => {}
  | j :: js =>
    match left with
    | [] => {}
    | k :: left => tallyPart k j + tallyItems left js

/-- What stands in some filters. -/
def tallyList : List Json → Tally
  | [] => {}
  | j :: js =>
    { operands := (tallyPart .not j).operands, misshapen := (tallyPart .not j).misshapen,
      crowded := (tallyPart .not j).crowded } + tallyList js

end

/-- The operand values that are written in a filter. -/
def operandsIn (j : Json) : Nat :=
  (tallyPart .not j).operands

/-- Whether every object of a filter has a shape of the grammar. -/
def KeepsGrammar (j : Json) : Prop :=
  (tallyPart .not j).misshapen = 0

instance (j : Json) : Decidable (KeepsGrammar j) :=
  inferInstanceAs (Decidable (_ = 0))

/-- Whether no object of a filter holds too much: more than one operator, or a field beside a
combinator. -/
def Uncrowded (j : Json) : Prop :=
  (tallyPart .not j).crowded = 0

instance (j : Json) : Decidable (Uncrowded j) :=
  inferInstanceAs (Decidable (_ = 0))

/-! ## What was read -/

/-- The operands of each comparison of a field, the comparisons in order. -/
def Test.comparisons (t : Test) : List (List Value) :=
  (t.eq.map fun v => [v]).toList ++ (t.ne.map fun v => [v]).toList
    ++ (t.gt.map fun v => [v]).toList ++ (t.ge.map fun v => [v]).toList
    ++ (t.lt.map fun v => [v]).toList ++ (t.le.map fun v => [v]).toList
    ++ t.oneOf.toList ++ (t.startsWith.map fun s => [.text s]).toList
    ++ (t.contains.map fun s => [.text s]).toList ++ (t.isNull.map fun _ => []).toList

def Test.tally (t : Test) : Tally where
  fields := t.field.toList.length
  comparisons := t.comparisons.length
  operands := t.comparisons.flatten.length

mutual

/-- What stands in a filter. -/
def tally : Filter → Tally
  | .literal _ => {}
  | .node and or not test =>
    (tallyGroup? and + tallyGroup? or + tallyNot? not + test.tally).closed

/-- What stands below a negation that may be missing. -/
def tallyNot? : Option Filter → Tally
  | none => {}
  | some f => f.tally.combinator

/-- What stands below a group that may be missing. -/
def tallyGroup? : Option (List Filter) → Tally
  | none => {}
  | some fs => (tallyAll fs).combinator

/-- What stands in some filters. -/
def tallyAll : List Filter → Tally
  | [] => {}
  | f :: fs => f.tally + tallyAll fs

end

def Parts.tally (p : Parts) : Tally :=
  tallyGroup? p.and + tallyGroup? p.or + tallyNot? p.not + p.test.tally

/-- The filter of some parts has their tally, closed. -/
theorem Parts.tally_filter (p : Parts) : p.filter.tally = p.tally.closed := by
  rw [Parts.filter, Filter.tally, Parts.tally]

/-! ## Reading keeps everything -/

/-- Whether something stands under a key. -/
def Test.has (t : Test) : TestKey → Bool
  | .field => t.field.isSome
  | .eq => t.eq.isSome
  | .ne => t.ne.isSome
  | .gt => t.gt.isSome
  | .ge => t.ge.isSome
  | .lt => t.lt.isSome
  | .le => t.le.isSome
  | .oneOf => t.oneOf.isSome
  | .startsWith => t.startsWith.isSome
  | .contains => t.contains.isSome
  | .isNull => t.isNull.isSome

def Parts.has (p : Parts) : Key → Bool
  | .and => p.and.isSome
  | .or => p.or.isSome
  | .not => p.not.isSome
  | .test k => p.test.has k

/-- Under a free key nothing stands. -/
theorem eq_none_of_free {α : Type} {o : Option α} (h : o.isSome = false) : o = none :=
  Option.isNone_iff_eq_none.mp (Option.isSome_eq_false_iff.mp h)

/-- As many values are read as there are items. -/
theorem length_of_ofItems? {xs : List Json} {vs : List Value} (h : Value.ofItems? xs = some vs) :
    vs.length = xs.length := by
  induction xs generalizing vs with
  | nil =>
    cases h
    rfl
  | cons x xs ih =>
    rw [Value.ofItems?] at h
    cases hx : Value.ofJson? x with
    | none =>
      rw [hx] at h
      cases h
    | some v =>
      cases hxs : Value.ofItems? xs with
      | none =>
        rw [hx, hxs] at h
        cases h
      | some ws =>
        rw [hx, hxs] at h
        cases h
        rw [List.length_cons, List.length_cons, ih hxs]

/-- What a test holds once a free key was read. -/
theorem Test.tally_of_put {t t' : Test} {k : TestKey} {j : Json} (h : t.put k j = some t')
    (hk : t.has k = false) :
    t'.tally = t.tally + k.tally j ∧ ∀ k', t'.has k' = true → t.has k' = true ∨ k' = k := by
  unfold Test.put at h
  split at h
  case h_12 => cases h
  case h_8 xs =>
    obtain ⟨vs, hvs, rfl⟩ := Option.map_eq_some_iff.mp h
    have hnone := eq_none_of_free hk
    have hlength := length_of_ofItems? hvs
    constructor
    · simp [Tally.ext_iff', Test.tally, Test.comparisons, hnone, TestKey.tally]
      omega
    · intro k'
      cases k' <;> simp [Test.has]
  all_goals
    -- all other keys hold one operand, or none
    first
    | obtain ⟨v, -, rfl⟩ := Option.map_eq_some_iff.mp h
    | obtain rfl := Option.some.inj h
    have hnone := eq_none_of_free hk
    constructor
    · simp [Tally.ext_iff', Test.tally, Test.comparisons, hnone, TestKey.tally]
      try omega
    · intro k'
      cases k' <;> simp [Test.has]

/-- What there is once a key was read: what was there, what the key adds, and no other key. -/
structure Parts.Grows (p : Parts) (k : Key) (t : Tally) (q : Parts) : Prop where
  tally_eq : q.tally = p.tally + t
  has : ∀ k', q.has k' = true → p.has k' = true ∨ k' = k

namespace Parts

variable {p q : Parts} {k : TestKey} {j : Json}

/-- A null takes no place. -/
theorem Grows.refl (p : Parts) (k : Key) : p.Grows k {} p :=
  ⟨(Tally.add_zero _).symm, fun _ => .inl⟩

/-- A conjunction takes its place, and its children are counted. -/
theorem Grows.and (hk : p.has .and = false) (fs : List Filter) :
    p.Grows .and (tallyAll fs).combinator { p with and := some fs } := by
  have hnone := eq_none_of_free hk
  refine ⟨?_, fun k' => by cases k' <;> simp [Parts.has]⟩
  simp [Tally.ext_iff', Parts.tally, hnone, tallyGroup?]
  omega

theorem Grows.or (hk : p.has .or = false) (fs : List Filter) :
    p.Grows .or (tallyAll fs).combinator { p with or := some fs } := by
  have hnone := eq_none_of_free hk
  refine ⟨?_, fun k' => by cases k' <;> simp [Parts.has]⟩
  simp [Tally.ext_iff', Parts.tally, hnone, tallyGroup?]
  omega

/-- A negation takes its place, and its child is counted. -/
theorem Grows.not (hk : p.has .not = false) (f : Filter) :
    p.Grows .not f.tally.combinator { p with not := some f } := by
  have hnone := eq_none_of_free hk
  refine ⟨?_, fun k' => by cases k' <;> simp [Parts.has]⟩
  simp [Tally.ext_iff', Parts.tally, hnone, tallyNot?]
  omega

/-- A comparison or a field takes its place in the leaf, with the operands it has. -/
theorem Grows.test {t : Test} (h : p.test.put k j = some t) (hk : p.has (.test k) = false) :
    p.Grows (.test k) (k.tally j) { p with test := t } := by
  obtain ⟨htally, hhas⟩ := Test.tally_of_put h hk
  refine ⟨?_, fun k' => ?_⟩
  · simp [Tally.ext_iff', Parts.tally, htally]
    omega
  · cases k' with
    | test k' =>
      intro h'
      exact (hhas k' h').imp id (congrArg Key.test)
    | _ => exact .inl

/-- A key that holds no filter. -/
theorem grows_of_readPart_test (h : readPart (.test k) p j = some q)
    (hk : p.has (.test k) = false) : p.Grows (.test k) (tallyPart (.test k) j) q := by
  cases j with
  | null =>
    cases h
    exact .refl p _
  | _ =>
    obtain ⟨t, ht, rfl⟩ := Option.map_eq_some_iff.mp h
    exact .test ht hk

end Parts

/-- Keys are told by their names. -/
theorem name_of_key {name name' : String} {k : Key} (h : Fields.get? keys name = some k)
    (h' : Fields.get? keys name' = some k) : name = name' := by
  have hall : ∀ e ∈ keys, ∀ e' ∈ keys, e.2 = e'.2 → e.1 = e'.1 := by decide
  exact hall _ (Fields.mem_of_get? h) _ (Fields.mem_of_get? h') rfl

theorem Parts.has_empty (k : Key) : ({} : Parts).has k = false := by
  cases k with
  | test k => cases k <;> rfl
  | _ => rfl

/-- A leaf that has nothing counts as nothing. -/
theorem Test.tally_of_empty {t : Test} (h : ∀ k, t.has k = false) : t.tally = {} := by
  simp [Test.tally, Test.comparisons, eq_none_of_free (h .field), eq_none_of_free (h .eq),
    eq_none_of_free (h .ne), eq_none_of_free (h .gt), eq_none_of_free (h .ge),
    eq_none_of_free (h .lt), eq_none_of_free (h .le), eq_none_of_free (h .oneOf),
    eq_none_of_free (h .startsWith), eq_none_of_free (h .contains), eq_none_of_free (h .isNull)]

/-- Where there is nothing but a negation. -/
theorem Parts.tally_of_not {p : Parts} {f : Filter} (hnot : p.not = some f)
    (h : ∀ k, p.has k = true → k = .not) : p.tally = f.tally.combinator := by
  have hfree : ∀ k, k ≠ .not → p.has k = false := by
    intro k hk
    cases hhas : p.has k with
    | false => rfl
    | true => exact absurd (h k hhas) hk
  have hand := eq_none_of_free (hfree .and (by decide))
  have hor := eq_none_of_free (hfree .or (by decide))
  have htest : p.test.tally = {} := Test.tally_of_empty fun k => hfree (.test k) (by simp)
  rw [Parts.tally, hand, hor, hnot, htest, Tally.add_zero]
  exact Tally.zero_add _

/-- What was read of one filter. -/
theorem Parts.Grows.filter {q : Parts} {t : Tally} {f : Filter}
    (h : Parts.Grows {} .not t q) (hnot : q.not = some f) : t = f.tally.combinator := by
  have honly : ∀ k, q.has k = true → k = .not := by
    intro k hk
    rcases h.has k hk with hk | rfl
    · rw [Parts.has_empty] at hk
      cases hk
    · rfl
  have htally := h.tally_eq
  rw [Parts.tally_of_not hnot honly] at htally
  rw [htally]
  exact (Tally.zero_add t).symm

mutual

/-- **Reading a key keeps what it holds.** -/
theorem grows_of_readPart {k : Key} {p q : Parts} : ∀ (j : Json), readPart k p j = some q →
    p.has k = false → p.Grows k (tallyPart k j) q
  | j, h, hk => by
    cases k with
    | test k => exact Parts.grows_of_readPart_test h hk
    | and =>
      cases j with
      | null =>
        cases h
        exact .refl p _
      | arr xs =>
        obtain ⟨fs, hfs, rfl⟩ := Option.map_eq_some_iff.mp h
        show p.Grows .and (tallyList xs).combinator _
        rw [← tallyAll_of_readList xs hfs]
        exact .and hk fs
      | _ => cases h
    | or =>
      cases j with
      | null =>
        cases h
        exact .refl p _
      | arr xs =>
        obtain ⟨fs, hfs, rfl⟩ := Option.map_eq_some_iff.mp h
        show p.Grows .or (tallyList xs).combinator _
        rw [← tallyAll_of_readList xs hfs]
        exact .or hk fs
      | _ => cases h
    | not =>
      cases j with
      | null =>
        cases h
        exact .refl p _
      | bool b =>
        cases h
        exact .not hk (.literal b)
      | obj ms =>
        obtain ⟨r, hr, rfl⟩ := Option.map_eq_some_iff.mp h
        have hread : readMembers [] {} ms = some r := hr
        -- the object is read into an empty record, whose tally is then that of its members
        have htally := tally_of_readMembers ms hread fun k hk => by
          rw [Parts.has_empty] at hk
          cases hk
        have hfilter : r.filter.tally = (tallyMembers ms).closed := by
          rw [Parts.tally_filter, htally]
          exact congrArg Tally.closed (Tally.zero_add _)
        show p.Grows .not (tallyMembers ms).closed.combinator _
        rw [← hfilter]
        exact .not hk r.filter
      | arr xs =>
        obtain ⟨r, hr, rfl⟩ := Option.map_eq_some_iff.mp h
        have htally := tally_of_readItems xs hr (by decide) fun k _ => Parts.has_empty k
        have hfilter : r.filter.tally = (tallyItems (keys.map Prod.snd) xs).closed := by
          rw [Parts.tally_filter, htally]
          exact congrArg Tally.closed (Tally.zero_add _)
        show p.Grows .not (tallyItems (keys.map Prod.snd) xs).closed.combinator _
        rw [← hfilter]
        exact .not hk r.filter
      | _ => cases h

/-- Reading an object keeps what stands in it.  No name is read twice, so whatever is there
already came under another name. -/
theorem tally_of_readMembers {seen : List String} {p q : Parts} : ∀ (ms : List (String × Json)),
    readMembers seen p ms = some q →
    (∀ k, p.has k = true → ∃ name ∈ seen, Fields.get? keys name = some k) →
    q.tally = p.tally + tallyMembers ms
  | [], h, _ => by
    cases h
    exact (Tally.add_zero _).symm
  | (name, j) :: ms, h, hseen => by
    rw [readMembers] at h
    rw [tallyMembers]
    split at h
    · cases h
    · rename_i hnew
      cases hkey : Fields.get? keys name with
      | none =>
        rw [hkey] at h
        cases h
      | some k =>
        rw [hkey] at h
        obtain ⟨r, hr, h⟩ := Option.bind_eq_some_iff.mp h
        -- what has a place already was put there under its one name, and this name is new
        have hk : p.has k = false := by
          cases hk : p.has k with
          | false => rfl
          | true =>
            obtain ⟨name', hname', hkey'⟩ := hseen k hk
            rw [name_of_key hkey hkey'] at hnew
            exact absurd (List.contains_iff_mem.mpr hname') hnew
        have hgrows := grows_of_readPart j hr hk
        have hrest := tally_of_readMembers ms h fun k' hk' => by
          rcases hgrows.has k' hk' with hk' | rfl
          · obtain ⟨name', hname', hkey'⟩ := hseen k' hk'
            exact ⟨name', List.mem_cons_of_mem _ hname', hkey'⟩
          · exact ⟨name, List.mem_cons_self, hkey⟩
        rw [hrest, hgrows.tally_eq, Tally.add_assoc]

/-- Reading an array as an object keeps what stands in it: every key is used once. -/
theorem tally_of_readItems {left : List Key} {p q : Parts} : ∀ (js : List Json),
    readItems left p js = some q → left.Nodup → (∀ k ∈ left, p.has k = false) →
    q.tally = p.tally + tallyItems left js
  | [], h, _, _ => by
    cases h
    exact (Tally.add_zero _).symm
  | j :: js, h, hnodup, hfree => by
    cases left with
    | nil => cases h
    | cons k left =>
      obtain ⟨hk, hfree⟩ := List.forall_mem_cons.mp hfree
      obtain ⟨hnotin, hnodup⟩ := List.nodup_cons.mp hnodup
      obtain ⟨r, hr, h⟩ := Option.bind_eq_some_iff.mp h
      have hgrows := grows_of_readPart j hr hk
      have hrest := tally_of_readItems js h hnodup fun k' hk' => by
        cases hhas : r.has k' with
        | false => rfl
        | true =>
          rcases hgrows.has k' hhas with hp | rfl
          · rw [hfree k' hk'] at hp
            cases hp
          · exact absurd hk' hnotin
      rw [tallyItems, hrest, hgrows.tally_eq, Tally.add_assoc]

/-- Reading a list of filters keeps what stands in them. -/
theorem tallyAll_of_readList {fs : List Filter} : ∀ (js : List Json), readList js = some fs →
    tallyAll fs = tallyList js
  | [], h => by
    cases h
    rfl
  | j :: js, h => by
    obtain ⟨r, hr, h⟩ := Option.bind_eq_some_iff.mp h
    obtain ⟨f, hf, h⟩ := Option.bind_eq_some_iff.mp h
    obtain ⟨gs, hgs, h⟩ := Option.bind_eq_some_iff.mp h
    cases h
    have htally := (grows_of_readPart j hr (Parts.has_empty .not)).filter hf
    rw [tallyAll, tallyList, tallyAll_of_readList js hgs, htally]
    cases f <;> rfl

end

/-- **What was read of a filter is all that stands in it.** -/
theorem tally_of_ofJson? {j : Json} {f : Filter} (h : ofJson? j = some f) :
    tallyPart .not j = f.tally.combinator := by
  obtain ⟨q, hq, hnot⟩ := Option.bind_eq_some_iff.mp h
  exact (grows_of_readPart j hq (Parts.has_empty .not)).filter hnot

end Filter

end DocQuery
