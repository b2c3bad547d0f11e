/-
  What becomes of what is written in a filter.

  The grammar of filters gives every object one operator, and a field exactly if the operator is a
  comparison.  Reading is laxer.  It keeps whatever known keys an object has, but the criteria are
  made of the first operator in order, and the others are dropped without a word.  So only of a
  text that keeps to the grammar are all operands in the criteria.

  An object may miss the grammar in two ways.  One that lacks its operator or its field is refused,
  if it is looked at; one that holds too much is not, and what it holds too much is not looked at.
  So the second way is the only one in which an accepted text misses the grammar.

  1. `Test.toCriteria_cases`: of the comparisons of a field the first counts;
  2. `beside_of_closed`, `beside_of_uncrowded`: where the grammar is kept, or at least nothing is
     too much, nothing stands beside a combinator;
  3. `Keeps`, `keeps_of_toCriteria`: how many operands the criteria of a filter have, and whether it
     keeps to the grammar, by induction on the filter;
  4. `fault_of_toCriteria`: why a filter that keeps to the grammar has no criteria;
  5. `CommandLine.operands_of_criteriaOf`: how much of a text is in its criteria.
-/
import DocQuery.CommandLine
import DocQuery.Proofs.Tally

namespace DocQuery

namespace Filter

/-! ## Criteria -/

/-- The criteria of a field are made of its first comparison. -/
theorem Test.toCriteria_cases (t : Test) :
    (t.toCriteria = .error .noField ∧ t.field = none)
    ∨ t.toCriteria = .error .blankField
    ∨ (t.toCriteria = .error .noOperator ∧ t.comparisons = [])
    ∨ ∃ c rest, t.toCriteria = .ok c ∧ t.comparisons = c.allOperands :: rest
      ∧ t.field.isSome := by
  unfold Test.toCriteria Test.comparisons
  cases t.field with
  | none => exact .inl ⟨rfl, rfl⟩
  | some f =>
    right
    dsimp only
    by_cases hblank : Text.isBlank f = true
    · exact .inl (if_pos hblank)
    · right
      rw [if_neg hblank]
      -- the comparisons are tried one after the other
      cases t.eq with
      | some _ => exact .inr ⟨_, _, rfl, rfl, rfl⟩
      | none =>
      cases t.ne with
      | some _ => exact .inr ⟨_, _, rfl, rfl, rfl⟩
      | none =>
      cases t.gt with
      | some _ => exact .inr ⟨_, _, rfl, rfl, rfl⟩
      | none =>
      cases t.ge with
      | some _ => exact .inr ⟨_, _, rfl, rfl, rfl⟩
      | none =>
      cases t.lt with
      | some _ => exact .inr ⟨_, _, rfl, rfl, rfl⟩
      | none =>
      cases t.le with
      | some _ => exact .inr ⟨_, _, rfl, rfl, rfl⟩
      | none =>
      cases t.oneOf with
      | some _ => exact .inr ⟨_, _, rfl, rfl, rfl⟩
      | none =>
      cases t.startsWith with
      | some _ => exact .inr ⟨_, _, rfl, rfl, rfl⟩
      | none =>
      cases t.contains with
      | some _ => exact .inr ⟨_, _, rfl, rfl, rfl⟩
      | none =>
      cases t.isNull with
      | some b => cases b <;> exact .inr ⟨_, _, rfl, rfl, rfl⟩
      | none => exact .inl ⟨rfl, rfl⟩

section Leaves

variable {t : Test}

/-- Criteria have the operands of a single comparison, and are made of some field and comparison. -/
theorem Test.operands_of_toCriteria {c : Criteria} (h : t.toCriteria = .ok c) :
    c.operandCount ≤ t.tally.operands
      ∧ (t.tally.comparisons = 1 → c.operandCount = t.tally.operands)
      ∧ t.tally.fields = 1 ∧ t.tally.comparisons ≠ 0 := by
  rcases t.toCriteria_cases with ⟨h', -⟩ | h' | ⟨h', -⟩ | ⟨c', rest, h', hrest, hfield⟩
  · rw [h] at h'
    cases h'
  · rw [h] at h'
    cases h'
  · rw [h] at h'
    cases h'
  · rw [h] at h'
    cases h'
    obtain ⟨f, hf⟩ := Option.isSome_iff_exists.mp hfield
    rw [Test.tally, hrest, hf, Criteria.operandCount]
    refine ⟨by simp, fun hone => ?_, rfl, Nat.succ_ne_zero _⟩
    obtain rfl : rest = [] := by simpa using hone
    simp

/-- A field with one comparison can only be blank. -/
theorem Test.fault_of_toCriteria {f : QueryFault} (h : t.toCriteria = .error f)
    (hfield : t.tally.fields = 1) (hone : t.tally.comparisons = 1) : f = .blankField := by
  rcases t.toCriteria_cases with ⟨h', hnone⟩ | h' | ⟨h', hnone⟩ | ⟨c, rest, h', -⟩
  · rw [Test.tally, hnone] at hfield
    cases hfield
  · rw [h] at h'
    exact Except.error.inj h'
  · rw [Test.tally, hnone] at hone
    cases hone
  · rw [h] at h'
    cases h'

end Leaves

/-- Where there is no combinator, nothing stands below one. -/
theorem tallyGroup?_eq {o : Option (List Filter)} (h : (tallyGroup? o).combinators = 0) :
    o = none := by
  cases o with
  | none => rfl
  | some fs => cases h

/-- A negation that counts for no combinator is not there. -/
theorem tallyNot?_eq {o : Option Filter} (h : (tallyNot? o).combinators = 0) : o = none := by
  cases o with
  | none => rfl
  | some f => cases h

/-- Without comparisons there are no operands. -/
theorem Test.operands_eq_zero {t : Test} (h : t.tally.comparisons = 0) : t.tally.operands = 0 := by
  have hnil : t.comparisons = [] := List.length_eq_zero_iff.mp h
  rw [Test.tally, hnil]
  rfl

/-- The two shapes of the grammar. -/
theorem Tally.documented_iff {t : Tally} : t.documented = true ↔
    (t.combinators = 1 ∧ t.fields = 0 ∧ t.comparisons = 0)
      ∨ (t.combinators = 0 ∧ t.fields = 1 ∧ t.comparisons = 1) := by
  simp [documented, and_assoc]

/-- What is not too much: one operator at most, and a field only if it is not a combinator. -/
theorem Tally.overfull_eq_false_iff {t : Tally} : t.overfull = false ↔
    t.combinators + t.comparisons ≤ 1 ∧ (t.combinators = 0 ∨ t.fields = 0) := by
  simp [overfull]
  omega

/-- An object that keeps to the grammar, with all below it. -/
theorem Tally.misshapen_closed {t : Tally} (h : t.closed.misshapen = 0) :
    t.misshapen = 0 ∧ t.documented = true := by
  rw [closed] at h
  dsimp only at h
  split at h
  · rename_i hdocumented
    exact ⟨h, hdocumented⟩
  · omega

/-- An object that does not hold too much, nor any below it. -/
theorem Tally.crowded_closed {t : Tally} (h : t.closed.crowded = 0) :
    t.crowded = 0 ∧ t.overfull = false := by
  rw [closed] at h
  dsimp only at h
  split at h
  · omega
  · rename_i hoverfull
    exact ⟨h, Bool.eq_false_iff.mpr hoverfull⟩

/-- What stands in an object beside its first combinator. -/
def beside (or : Option (List Filter)) (not : Option Filter) (test : Test) : Tally :=
  tallyGroup? or + tallyNot? not + test.tally

section Nodes

variable (fs : List Filter) (f : Filter) (or : Option (List Filter)) (not : Option Filter)
  (test : Test)

/-- The tally of a conjunction: its children's, and beside them what does not belong. -/
theorem tally_and : (node (some fs) or not test).tally
    = ((tallyAll fs).combinator + beside or not test).closed := by
  rw [tally, tallyGroup?, beside, Tally.add_assoc, Tally.add_assoc, Tally.add_assoc]

theorem tally_or : (node none (some fs) not test).tally
    = ((tallyAll fs).combinator + beside none not test).closed := by
  rw [tally, tallyGroup?, tallyGroup?, beside, tallyGroup?, Tally.zero_add, Tally.zero_add,
    Tally.add_assoc]

theorem tally_not : (node none none (some f) test).tally
    = (f.tally.combinator + beside none none test).closed := by
  rw [tally, tallyGroup?, tallyNot?, beside, tallyGroup?, tallyNot?, Tally.zero_add,
    Tally.zero_add, Tally.zero_add]

theorem tally_leaf : (node none none none test).tally = test.tally.closed := by
  rw [tally, tallyGroup?, tallyNot?, Tally.zero_add, Tally.zero_add, Tally.zero_add]

end Nodes

section Beside

variable {t : Tally} {or : Option (List Filter)} {not : Option Filter} {test : Test}

/-- Where no operator stands beside a combinator, nothing does that would count. -/
theorem beside_eq (hcombinators : (beside or not test).combinators = 0)
    (hcomparisons : (beside or not test).comparisons = 0) :
    (beside or not test).operands = 0 ∧ (beside or not test).misshapen = 0 := by
  simp only [beside, Tally.combinators_add, Tally.comparisons_add] at hcombinators hcomparisons
  obtain rfl : or = none := tallyGroup?_eq (by omega)
  obtain rfl : not = none := tallyNot?_eq (by omega)
  have hoperands := Test.operands_eq_zero (t := test) (by omega)
  refine ⟨?_, rfl⟩
  simp only [beside, tallyGroup?, tallyNot?, Tally.operands_add, hoperands]

/-- Beside a combinator nothing stands where the grammar is kept. -/
theorem beside_of_closed (h : (t.combinator + beside or not test).closed.misshapen = 0) :
    t.misshapen = 0 ∧ (beside or not test).operands = 0 := by
  obtain ⟨hmisshapen, hdocumented⟩ := Tally.misshapen_closed h
  rw [Tally.documented_iff] at hdocumented
  simp only [Tally.combinators_add, Tally.comparisons_add, Tally.misshapen_add,
    Tally.combinator] at hmisshapen hdocumented
  exact ⟨by omega, (beside_eq (by omega) (by omega)).1⟩

/-- Where nothing is too much, nothing stands beside a combinator that would count, and the object
has a shape of the grammar. -/
theorem beside_of_uncrowded (h : (t.combinator + beside or not test).closed.crowded = 0) :
    t.crowded = 0 ∧ (beside or not test).misshapen = 0
      ∧ (t.combinator + beside or not test).documented = true := by
  obtain ⟨hcrowded, hoverfull⟩ := Tally.crowded_closed h
  rw [Tally.overfull_eq_false_iff] at hoverfull
  rw [Tally.documented_iff]
  simp only [Tally.combinators_add, Tally.fields_add, Tally.comparisons_add, Tally.crowded_add,
    Tally.combinator] at hcrowded hoverfull ⊢
  exact ⟨by omega, (beside_eq (by omega) (by omega)).2, by omega⟩

end Beside

/-- Of a filter with criteria: they have as many operands as were written, or fewer; where the
grammar is kept, as many; and where nothing is too much, it is kept. -/
structure Keeps (n : Nat) (t : Tally) : Prop where
  le : n ≤ t.operands
  eq : t.misshapen = 0 → n = t.operands
  whole : t.crowded = 0 → t.misshapen = 0

namespace Keeps

variable {m n : Nat} {t u : Tally}

/-- Tallies of parts that are kept are kept together. -/
theorem add (h : Keeps m t) (h' : Keeps n u) : Keeps (m + n) (t + u) where
  le := Nat.add_le_add h.le h'.le
  eq := by
    intro hzero
    obtain ⟨ht, hu⟩ := Nat.add_eq_zero_iff.mp hzero
    rw [h.eq ht, h'.eq hu, Tally.operands_add]
  whole := by
    intro hzero
    obtain ⟨ht, hu⟩ := Nat.add_eq_zero_iff.mp hzero
    rw [Tally.misshapen_add, h.whole ht, h'.whole hu]

/-- Under the first combinator of an object. -/
theorem below (h : Keeps n t) (or : Option (List Filter)) (not : Option Filter) (test : Test) :
    Keeps n (t.combinator + beside or not test).closed where
  le := Nat.le_add_right_of_le h.le
  eq := by
    intro hzero
    obtain ⟨hmisshapen, hbeside⟩ := beside_of_closed hzero
    show n = t.operands + (beside or not test).operands
    rw [hbeside, h.eq hmisshapen, Nat.add_zero]
  whole := by
    intro hzero
    obtain ⟨hcrowded, hbeside, hdocumented⟩ := beside_of_uncrowded hzero
    rw [Tally.closed, if_pos hdocumented]
    show t.misshapen + (beside or not test).misshapen = 0
    rw [h.whole hcrowded, hbeside]

/-- In an object without combinators, but with a field and a comparison. -/
theorem leaf {test : Test} (h : n ≤ test.tally.operands)
    (heq : test.tally.comparisons = 1 → n = test.tally.operands) (hfield : test.tally.fields = 1)
    (hsome : test.tally.comparisons ≠ 0) : Keeps n test.tally.closed where
  le := h
  eq := by
    intro hzero
    obtain ⟨-, hdocumented⟩ := Tally.misshapen_closed hzero
    rcases Tally.documented_iff.mp hdocumented with ⟨hcombinators, -⟩ | ⟨-, -, hone⟩
    · cases hcombinators
    · exact heq hone
  whole := by
    intro hzero
    have hcombinators : test.tally.combinators = 0 := rfl
    obtain ⟨-, hoverfull⟩ := Tally.crowded_closed hzero
    have hone := (Tally.overfull_eq_false_iff.mp hoverfull).1
    have hdocumented : test.tally.documented = true :=
      Tally.documented_iff.mpr (.inr ⟨hcombinators, hfield, by omega⟩)
    rw [Tally.closed, if_pos hdocumented]
    rfl

end Keeps

mutual

/-- **The criteria of a filter have no more operands than it, and as many if it keeps to the
grammar.**  It does unless one of its objects holds too much. -/
theorem keeps_of_toCriteria : ∀ (f : Filter) {c : Criteria}, f.toCriteria = .ok c →
    Keeps c.operandCount f.tally
  | .literal b, c, h => by
    cases h
    cases b <;> exact ⟨Nat.le_refl 0, fun _ => rfl, fun _ => rfl⟩
  | .node (some fs) or not test, c, h => by
    obtain ⟨cs, hcs, rfl⟩ := ok_of_map h
    rw [tally_and]
    exact (keeps_of_listToCriteria fs hcs).below or not test
  | .node none (some fs) not test, c, h => by
    obtain ⟨cs, hcs, rfl⟩ := ok_of_map h
    rw [tally_or]
    exact (keeps_of_listToCriteria fs hcs).below none not test
  | .node none none (some f) test, c, h => by
    obtain ⟨c', hc', rfl⟩ := ok_of_map h
    rw [tally_not]
    exact (keeps_of_toCriteria f hc').below none none test
  | .node none none none test, c, h => by
    rw [tally_leaf]
    obtain ⟨hle, heq, hfield, hsome⟩ := Test.operands_of_toCriteria h
    exact .leaf hle heq hfield hsome

/-- `keeps_of_toCriteria` for the children of a node. -/
theorem keeps_of_listToCriteria : ∀ (fs : List Filter) {cs : List Criteria},
    listToCriteria fs = .ok cs → Keeps (Criteria.allOperandsList cs).length (tallyAll fs)
  | [], cs, h => by
    cases h
    exact ⟨Nat.le_refl 0, fun _ => rfl, fun _ => rfl⟩
  | f :: fs, cs, h => by
    obtain ⟨c, hc, h⟩ := ok_of_bind h
    obtain ⟨ds, hds, h⟩ := ok_of_bind h
    cases h
    rw [Criteria.allOperandsList, List.length_append, tallyAll]
    exact (keeps_of_toCriteria f hc).add (keeps_of_listToCriteria fs hds)

end

mutual

/-- **A filter that keeps to the grammar has criteria, unless a field is blank.** -/
theorem fault_of_toCriteria : ∀ (f : Filter) {e : QueryFault}, f.toCriteria = .error e →
    f.tally.misshapen = 0 → e = .blankField
  | .literal b, e, h, _ => by cases h
  | .node (some fs) or not test, e, h, hzero => by
    rw [tally_and] at hzero
    exact fault_of_listToCriteria fs (error_of_map h) (beside_of_closed hzero).1
  | .node none (some fs) not test, e, h, hzero => by
    rw [tally_or] at hzero
    exact fault_of_listToCriteria fs (error_of_map h) (beside_of_closed hzero).1
  | .node none none (some f) test, e, h, hzero => by
    rw [tally_not] at hzero
    exact fault_of_toCriteria f (error_of_map h) (beside_of_closed hzero).1
  | .node none none none test, e, h, hzero => by
    rw [tally_leaf] at hzero
    obtain ⟨-, hdocumented⟩ := Tally.misshapen_closed hzero
    rcases Tally.documented_iff.mp hdocumented with ⟨hcombinators, -⟩ | ⟨-, hfield, hone⟩
    · cases hcombinators
    · exact Test.fault_of_toCriteria h hfield hone

/-- `fault_of_toCriteria` for the children of a node. -/
theorem fault_of_listToCriteria : ∀ (fs : List Filter) {e : QueryFault},
    listToCriteria fs = .error e → (tallyAll fs).misshapen = 0 → e = .blankField
  | [], e, h, _ => by cases h
  | f :: fs, e, h, hzero => by
    obtain ⟨hf, hfs⟩ := Nat.add_eq_zero_iff.mp hzero
    rcases error_of_bind h with h | ⟨c, -, h⟩
    · exact fault_of_toCriteria f h hf
    · rcases error_of_bind h with h | ⟨cs, -, h⟩
      · exact fault_of_listToCriteria fs h hfs
      · cases h

end

end Filter

/-! ## Texts of filters -/

namespace CommandLine

open DocQuery.Filter (operandsIn KeepsGrammar Uncrowded tally_of_ofJson?)

/-- A text that is read as a filter is JSON, and reads as the filter of its value. -/
theorem read_of_ofText {text : String} {f : Filter} (h : Filter.ofText text = .ok f) :
    ∃ j, Json.read text = .ok j ∧ Filter.ofJson? j = some f := by
  obtain ⟨⟨j, rest⟩, hfront, h⟩ := ok_of_bind h
  dsimp only at h
  split at h
  · cases h
  · rename_i f' hf'
    obtain ⟨⟨⟩, hend, h⟩ := ok_of_bind h
    cases h
    refine ⟨j, ?_, hf'⟩
    simp only [Json.read, Json.readAs, hfront, hend, bind, Except.bind]

/-- **What becomes of the operands that are written in a filter.**  The criteria of an accepted
text have no more operands than the text, and as many if all of its objects have shapes of the
grammar; they do unless one of them holds too much, so what lacks an operator or a field is
refused.  And for what is said in objects with such shapes no text is refused, blank fields
apart. -/
theorem operands_of_criteriaOf (text : String) :
    (∀ c, criteriaOf text = .ok c → ∃ j, Json.read text = .ok j
      ∧ c.operandCount ≤ operandsIn j ∧ (KeepsGrammar j → c.operandCount = operandsIn j)
      ∧ (Uncrowded j → KeepsGrammar j))
    ∧ ∀ e, criteriaOf text = .error (.queryCompilation e) → ∃ j, Json.read text = .ok j
      ∧ (KeepsGrammar j → e = .blankField) := by
  constructor
  · intro c h
    obtain ⟨f, hf, hc⟩ := ok_of_bind h
    obtain ⟨j, hj, hfilter⟩ := read_of_ofText (ok_of_mapError hf)
    have hkeeps := Filter.keeps_of_toCriteria f (ok_of_mapError hc)
    refine ⟨j, hj, ?_⟩
    rw [operandsIn, KeepsGrammar, Uncrowded, tally_of_ofJson? hfilter]
    exact ⟨hkeeps.le, hkeeps.eq, hkeeps.whole⟩
  · intro e h
    rcases error_of_bind h with h | ⟨f, hf, h⟩
    · obtain ⟨f, -, hjson⟩ := error_of_mapError h
      cases hjson
    · obtain ⟨j, hj, hfilter⟩ := read_of_ofText (ok_of_mapError hf)
      obtain ⟨e', he', hcompile⟩ := error_of_mapError h
      cases hcompile
      refine ⟨j, hj, ?_⟩
      rw [KeepsGrammar, tally_of_ofJson? hfilter]
      exact Filter.fault_of_toCriteria f he'

/-- A filter with groups, which keeps to the grammar. -/
def nestedFilter : String :=
  "\x7b\"$and\":[\x7b\"field\":\"status\",\"$in\":[\"a\",\"b\"]\x7d,"
    ++ "\x7b\"$not\":\x7b\"field\":\"name\",\"$startsWith\":\"tmp\"\x7d\x7d]\x7d"

/-- A filter that keeps to the grammar, over a field without a name. -/
def namelessFilter : String :=
  "\x7b\"field\":\" \",\"$eq\":1\x7d"

/-- All three operands of the one are in its criteria, and the other is refused for its field. -/
theorem operands_of_criteriaOf_nested : (∃ c, criteriaOf nestedFilter = .ok c ∧ c.operandCount = 3)
    ∧ ∃ e, criteriaOf namelessFilter = .error (.queryCompilation e) ∧ e = .blankField := by
  constructor
  · obtain ⟨c, hc, -⟩ := ok_of_toOption_map (f := fun _ => ()) (b := ())
      (x := criteriaOf nestedFilter) (by decide +kernel)
    obtain ⟨j, hj, -, hcount, hkeeps⟩ := (operands_of_criteriaOf nestedFilter).1 c hc
    obtain ⟨j', hj', hoperands⟩ := ok_of_toOption_map (f := fun j => (operandsIn j, decide
      (Uncrowded j))) (b := (3, true)) (x := Json.read nestedFilter) (by decide +kernel)
    obtain rfl : j = j' := Except.ok.inj (hj.symm.trans hj')
    obtain ⟨hthree, huncrowded⟩ := Prod.mk.inj hoperands
    refine ⟨c, hc, ?_⟩
    rw [hcount (hkeeps (of_decide_eq_true huncrowded)), hthree]
  · have hrefused : criteriaOf namelessFilter = .error (.queryCompilation .blankField) := by
      have hfault : (match criteriaOf namelessFilter with
          | .error e => some e
          | .ok _ => none) = some (.queryCompilation .blankField) := by decide +kernel
      split at hfault
      · rename_i e he
        rw [he, Option.some.inj hfault]
      · cases hfault
    obtain ⟨j, hj, hfault⟩ := (operands_of_criteriaOf namelessFilter).2 _ hrefused
    obtain ⟨j', hj', hkeeps⟩ := ok_of_toOption_map (f := fun j => decide (KeepsGrammar j))
      (b := true) (x := Json.read namelessFilter) (by decide +kernel)
    obtain rfl : j = j' := Except.ok.inj (hj.symm.trans hj')
    exact ⟨_, hrefused, hfault (of_decide_eq_true hkeeps)⟩

/-- A field with two comparisons. -/
def doubleFilter : String :=
  "\x7b\"field\":\"status\",\"$eq\":\"archived\",\"$lt\":5\x7d"

/-- **Of two comparisons one is dropped**: a text that does not keep to the grammar is accepted,
with criteria that have fewer operands than it. -/
theorem operands_dropped : ∃ j c, Json.read doubleFilter = .ok j ∧ criteriaOf doubleFilter = .ok c
    ∧ ¬ KeepsGrammar j ∧ operandsIn j = 2 ∧ c.operandCount = 1 := by
  obtain ⟨j, hj, hoperands⟩ := ok_of_toOption_map (f := fun j => (operandsIn j, decide
    (KeepsGrammar j))) (b := (2, false)) (x := Json.read doubleFilter) (by decide +kernel)
  obtain ⟨c, hc, hcount⟩ := ok_of_toOption_map (f := Criteria.operandCount) (b := 1)
    (x := criteriaOf doubleFilter) (by decide +kernel)
  obtain ⟨htwo, hbroken⟩ := Prod.mk.inj hoperands
  exact ⟨j, c, hj, hc, of_decide_eq_false hbroken, htwo, hcount⟩

end CommandLine

end DocQuery
