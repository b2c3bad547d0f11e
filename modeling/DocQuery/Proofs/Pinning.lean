/-
  Pinned fields.

  A query about one partition is told from its criteria alone: an equality with one value, below
  conjunctions only, pins a field.  Whatever else stands in the tree, each record that the query
  matches holds that value there, so the records of one partition are all it has to look at.

  Which field is pinned is computed from the tree and what a record matches from the text, so the
  proof has two parts: a tree that is true of a record has its pinned value there, by induction;
  and a record that the text accepts meets the tree, which is what `Truth` and `Reading` say.  The
  value need not be the same as the one that is pinned, since numbers are compared by value; it is
  equal to it.

  1. `Document.Holds`: a field with a value equal to a given one;
  2. `holds_of_pinned`: criteria that are true find the pinned value, by induction on the tree;
  3. `Query.Matches`: what the statement of a query accepts, once its text is read;
  4. `pinned_sound`: what a query pins, all its matches hold, in any collection.
-/
import DocQuery.Proofs.Slices

namespace DocQuery

open Dialect (Select accepts_written matching_written ofText_written)

/-- A field of a document holds a value equal to `v`; numbers count by value. -/
def Document.Holds (d : Document) (field : String) (v : Value) : Prop :=
  ∃ w, d.field? field = some w ∧ w.equals v = true

/-! ## Criteria that are true -/

/-- A group of which all must be true is true as all are. -/
theorem allThree_eq_true_iff {ts : List (Option Bool)} :
    allThree ts = some true ↔ ∀ t ∈ ts, t = some true := by
  rw [allThree]
  constructor
  · intro h t ht
    split at h
    · cases h
    · rename_i hfalse
      split at h
      · cases h
      · rename_i hnone
        rcases t with _ | _ | _
        · exact absurd ht hnone
        · exact absurd ht hfalse
        · rfl
  · intro h
    have hfalse : some false ∉ ts := by
      intro hmem
      cases h _ hmem
    have hnone : none ∉ ts := by
      intro hmem
      cases h _ hmem
    rw [if_neg hfalse, if_neg hnone]

namespace Criteria

variable {d : Document} {field : String} {v : Value}

/-- An equality that is true of a document pins a value the document holds. -/
theorem holds_of_equal {f : String} {w : Value}
    (hpin : (compare .eq f w).pinned? field = some v)
    (htrue : (compare .eq f w).truth d = some true) : d.Holds field v := by
  rw [pinned?] at hpin
  split at hpin
  · rename_i hf
    obtain rfl := Option.some.inj hpin
    rw [truth, hf] at htrue
    obtain ⟨u, hu, hequal⟩ := Option.bind_eq_some_iff.mp htrue
    exact ⟨u, hu, Option.some.inj hequal⟩
  · cases hpin

/-- A membership among one value pins as the equality does. -/
theorem holds_of_one {f : String} {w : Value} (hpin : (oneOf f [w]).pinned? field = some v)
    (htrue : (oneOf f [w]).truth d = some true) : d.Holds field v := by
  rw [pinned?] at hpin
  split at hpin
  · rename_i hf
    obtain rfl := Option.some.inj hpin
    rw [truth, hf] at htrue
    obtain ⟨u, hu, hequal⟩ := Option.map_eq_some_iff.mp htrue
    rw [List.any_cons, List.any_nil, Bool.or_false] at hequal
    exact ⟨u, hu, hequal⟩
  · cases hpin

mutual

/-- **A document that criteria are true of holds the value that they pin.**  Induction on the
criteria: a conjunction is true as its children are, and no other group pins anything. -/
theorem holds_of_pinned : ∀ c : Criteria, c.pinned? field = some v → c.truth d = some true →
    d.Holds field v
  | .and cs, hpin, htrue => by
    rw [pinned?] at hpin
    rw [truth] at htrue
    exact holds_of_pinnedList cs hpin (allThree_eq_true_iff.mp htrue)
  | .compare .eq f w, hpin, htrue => holds_of_equal hpin htrue
  | .oneOf f [w], hpin, htrue => holds_of_one hpin htrue

/-- In a conjunction that is true some child pins the field, and is true itself. -/
theorem holds_of_pinnedList : ∀ cs : List Criteria, pinnedList? field cs = some v →
    (∀ t ∈ truths d cs, t = some true) → d.Holds field v
  | [], hpin, _ => by cases hpin
  | c :: cs, hpin, htrue => by
    rw [pinnedList?] at hpin
    obtain ⟨hc, hcs⟩ := List.forall_mem_cons.mp htrue
    -- the value is that of the first child, or of one behind it
    rcases Option.or_eq_some_iff.mp hpin with hpin | ⟨-, hpin⟩
    · exact holds_of_pinned c hpin hc
    · exact holds_of_pinnedList cs hpin hcs

end

/-- A document that meets criteria holds every value they pin. -/
theorem holds_of_meets {c : Criteria} (hpin : c.pinned? field = some v)
    (hmeets : c.meets d = true) : d.Holds field v :=
  holds_of_pinned c hpin (beq_iff_eq.mp hmeets)

end Criteria

/-! ## Queries -/

namespace Query

variable {q : Query} {field : String} {v : Value} {d : Document}

/-- The statement of a query accepts a record, once its text is read. -/
def Matches (q : Query) (d : Document) : Prop :=
  ∃ shape statement select, Statement.ofQuery shape q = .ok statement
    ∧ Select.ofText statement.text = .ok select
    ∧ select.accepts statement.parameter? d = .ok true

/-- The text reads back, so what it accepts are the records that meet the criteria. -/
theorem Matches.meets (h : q.Matches d) : q.criteria.meets d = true := by
  obtain ⟨shape, statement, select, hst, htext, haccepts⟩ := h
  rw [ofText_written hst] at htext
  obtain rfl := Except.ok.inj htext
  rw [accepts_written hst] at haccepts
  exact Except.ok.inj haccepts

/-- What meets the criteria is what the written statement accepts. -/
theorem matches_of_meets {shape : Statement.Shape} {statement : Statement}
    (hst : Statement.ofQuery shape q = .ok statement) (h : q.criteria.meets d = true) :
    q.Matches d := by
  refine ⟨shape, statement, q.select shape, hst, ofText_written hst, ?_⟩
  rw [accepts_written hst, h]

/-- What a store delivers for the text of a statement matches its query. -/
theorem Matches.of_matching {shape : Statement.Shape} {statement : Statement} {select : Select}
    {c : Collection} {ds : List Document} (hst : Statement.ofQuery shape q = .ok statement)
    (htext : Select.ofText statement.text = .ok select)
    (hds : Store.matching c select statement = .ok ds) (hd : d ∈ ds) : q.Matches d := by
  rw [ofText_written hst] at htext
  obtain rfl := Except.ok.inj htext
  rw [Store.matching, matching_written hst] at hds
  obtain rfl := Except.ok.inj hds
  exact matches_of_meets hst (List.mem_filter.mp hd).2

/-- A query that does not fan out pins every field of the partition key. -/
theorem pinned_of_isCrossPartition {fields : List String}
    (h : q.isCrossPartition fields = false) (hfield : field ∈ fields) :
    ∃ v, q.pinned? field = some v := by
  rw [isCrossPartition, Bool.or_eq_false_iff, List.any_eq_false] at h
  cases hpin : q.pinned? field with
  | some v => exact ⟨v, rfl⟩
  | none =>
    refine absurd ?_ (h.2 field hfield)
    rw [hpin]
    rfl

/-- **What a query pins, its matches hold.**  So the matches of a query that does not fan out hold
one value, in whatever collection they are looked for. -/
theorem pinned_sound (q : Query) (field : String) :
    (∀ v, q.pinned? field = some v → ∀ d, q.Matches d → d.Holds field v)
    ∧ (q.isCrossPartition [field] = false →
      ∃ v, q.pinned? field = some v ∧ (∀ d, q.Matches d → d.Holds field v)
        ∧ ∀ (shape : Statement.Shape) (statement : Statement) (select : Select)
            (c : Collection) (ds : List Document), Statement.ofQuery shape q = .ok statement →
          Select.ofText statement.text = .ok select →
          Store.matching c select statement = .ok ds → ∀ d ∈ ds, d.Holds field v) := by
  have hholds : ∀ v, q.pinned? field = some v → ∀ d, q.Matches d → d.Holds field v :=
    fun v hpin d hmatches => Criteria.holds_of_meets hpin hmatches.meets
  refine ⟨hholds, fun hcross => ?_⟩
  obtain ⟨v, hpin⟩ := pinned_of_isCrossPartition hcross List.mem_cons_self
  refine ⟨v, hpin, hholds v hpin, ?_⟩
  intro shape statement select c ds hst htext hds d hd
  exact hholds v hpin d (.of_matching hst htext hds hd)

/-- Orders of customer seven that are large or late, and are not of customer eight. -/
def urgent : Query where
  criteria := .and [.not (.compare .eq "customer.id" (.int32 8)),
    .and [.or [.compare .gt "total" (.int32 100), .compare .eq "late" (.bool true)],
      .oneOf "customer.id" [.int32 7]],
    .compare .eq "customer.id" (.double (.ofNat 7))]

/-- An order of customer seven, in a number of another width. -/
def lateOrder : Document :=
  [("id", .text "o1"), ("late", .bool true), ("customer", .doc [("id", .int64 7)])]

/-- A match holds what is pinned first, though not as the same number. -/
theorem pinned_sound_urgent :
    urgent.isCrossPartition ["customer.id"] = false ∧ urgent.Matches lateOrder
      ∧ lateOrder.Holds "customer.id" (.int32 7) := by
  obtain ⟨statement, hst⟩ : ∃ statement, Statement.ofQuery .find urgent = .ok statement := ⟨_, rfl⟩
  have hmatches : urgent.Matches lateOrder := matches_of_meets hst rfl
  have hcross : urgent.isCrossPartition ["customer.id"] = false := rfl
  obtain ⟨v, hpin, hholds, -⟩ := (pinned_sound urgent "customer.id").2 hcross
  obtain rfl : v = .int32 7 := (Option.some.inj hpin).symm
  exact ⟨hcross, hmatches, hholds lateOrder hmatches⟩

end Query

end DocQuery
