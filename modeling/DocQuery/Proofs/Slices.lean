/-
  Slices of an answer, and the continuations between them.

  A store keeps nothing between two slices of an answer.  It finds and sorts all matches anew and
  goes on at the place that the continuation names, so what has to be known is that a place
  survives the way through the text of a continuation, and what a slice from a place holds.

  A limit of none, or one beyond the end, gives the rest; a place beyond the end gives nothing.
  All of that is `take` and `drop`.  The matches are put in terms of the criteria here, with the
  written statement out of the way: `found` is the list, or the fault for which it may not be had,
  and it is what later modules know of a store.

  1. `placeOf_tokenOf`: continuations read back;
  2. `slice_some`, `slice_none`: a slice in terms of `take` and `drop`;
  3. `matched`: the matches of a query, of which an answer is a slice or the number;
  4. `found`: what they are for a statement that was written from criteria;
  5. `FitsMemory`: stores whose collections a machine can hold.
-/
import DocQuery.Proofs.Truth
import DocQuery.Store.Query

namespace DocQuery.Store

open Dialect (Select)

/-! ## Continuations -/

theorem startsWith_append (s t : String) : Text.startsWith (s ++ t) s = true := by
  rw [Text.startsWith, String.toList_append, List.isPrefixOf_iff_prefix]
  exact List.prefix_append _ _

/-- The place that a continuation was made of is the one it names. -/
theorem placeOf?_tokenOf {place : Nat} (h : place ≤ maxPlace) :
    placeOf? (tokenOf place) = some place := by
  have hdrop : (tokenOf place).toList.drop tokenStart.length = Text.natChars place := by
    rw [tokenOf, String.toList_append, ← String.length_toList, List.drop_left, Text.ofNat,
      String.toList_ofList]
  rw [placeOf?, tokenOf, if_pos (startsWith_append _ _), ← tokenOf, hdrop]
  exact Text.readNat_natChars h

/-- A token is read as the place it was made for. -/
theorem placeOf_tokenOf {place : Nat} (h : place ≤ maxPlace) :
    placeOf (some (tokenOf place)) = .ok place := by
  rw [placeOf, placeOf?_tokenOf h]

/-! ## Slices -/

section Slice

variable {α : Type} (xs : List α) (place : Nat)

/-- Without a limit a slice is all there is from its place on. -/
theorem slice_none : slice xs place none = ⟨xs.drop place, none⟩ := by
  have hnext : ¬ xs.length < xs.length := Nat.lt_irrefl _
  rw [slice, List.take_length, if_neg hnext]
  rcases Nat.le_total place xs.length with h | h
  · rw [Nat.min_eq_left h]
  · rw [Nat.min_eq_right h, List.drop_length, List.drop_eq_nil_of_le h]

/-- With a limit it is as much of that as the limit allows. -/
theorem slice_some (n : Nat) : slice xs place (some n)
    = ⟨(xs.drop place).take n, if place + n < xs.length then some (place + n) else none⟩ := by
  rw [slice]
  by_cases h : place + n < xs.length
  -- something is left behind the slice
  · have hstop : min (place + n) xs.length = place + n := Nat.min_eq_left (Nat.le_of_lt h)
    have hstart : min place (place + n) = place := Nat.min_eq_left (Nat.le_add_right _ _)
    simp only [hstop, hstart, if_pos h, List.drop_take, Nat.add_sub_cancel_left]
  -- the slice reaches the end
  · have hstop : min (place + n) xs.length = xs.length := Nat.min_eq_right (by omega)
    have htake : (xs.drop place).take n = xs.drop place :=
      List.take_of_length_le (by rw [List.length_drop]; omega)
    simp only [hstop, if_neg h, Nat.lt_irrefl, if_false, List.take_length, htake]
    rcases Nat.le_total place xs.length with hle | hle
    · rw [Nat.min_eq_left hle]
    · rw [Nat.min_eq_right hle, List.drop_length, List.drop_eq_nil_of_le hle]

end Slice

/-! ## Matches -/

/-- The matches of a query in a store, if it may have them. -/
def matched (s : Store) (name : String) (q : Select) (statement : Statement)
    (crossPartition : Bool) : Except Fault (List Document) :=
  match s.collection? name with
  | none => .error (.noCollection name)
  | some c => do
    let ds ← matching c q statement
    if !crossPartition && c.isPartitioned && spansPartitions c ds then .error .manyPartitions
    else .ok ds

variable (settings : Settings) {name : String} {statement : Statement} {options : QueryOptions}
  {s : Store} {q : Select}

/-- The limit of an answer: what was asked for, and no more than the store allows. -/
def limit (settings : Settings) (options : QueryOptions) : Option Nat :=
  smallerLimit options.maxItems settings.maxItems

/-- A query answers with what is delivered of its matches. -/
theorem query_of_matched {ds : List Document} {part : List Document × Option String}
    (hq : Select.ofText statement.text = .ok q)
    (hm : matched s name q statement options.crossPartition = .ok ds)
    (hd : deliver settings q options ds = .ok part) :
    ∃ a, query settings name statement options s = .ok a
      ∧ a.records = part.1 ∧ a.continuation = part.2 := by
  rw [matched] at hm
  cases hc : s.collection? name with
  | none =>
    rw [hc] at hm
    cases hm
  | some c =>
    rw [hc] at hm
    obtain ⟨ds', hmatching, hm⟩ := ok_of_bind hm
    split at hm
    · cases hm
    · rename_i hspan
      cases hm
      have hquery : ∃ charge metrics, query settings name statement options s
          = .ok ⟨part.1, part.2, charge, metrics⟩ := by
        simp only [query, hq, hc, bind, Except.bind, hmatching, if_neg hspan, hd]
        exact ⟨_, _, rfl⟩
      obtain ⟨charge, metrics, hquery⟩ := hquery
      exact ⟨_, hquery, rfl, rfl⟩

/-- A query that may not have its matches is refused as they are. -/
theorem query_of_fault {f : Fault} (hq : Select.ofText statement.text = .ok q)
    (hm : matched s name q statement options.crossPartition = .error f) :
    query settings name statement options s = .error f := by
  rw [matched] at hm
  cases hc : s.collection? name with
  | none =>
    rw [hc] at hm
    cases hm
    simp only [query, hq, hc, bind, Except.bind]
  | some c =>
    rw [hc] at hm
    cases hmatching : matching c q statement with
    | error g =>
      simp only [hmatching, bind, Except.bind] at hm
      cases hm
      simp only [query, hq, hc, bind, Except.bind, hmatching]
    | ok ds =>
      simp only [hmatching, bind, Except.bind] at hm
      split at hm
      · rename_i hspan
        cases hm
        simp only [query, hq, hc, bind, Except.bind, hmatching, if_pos hspan]
      · cases hm

/-- A query is refused if its matches cannot be delivered, with the same fault. -/
theorem query_of_undelivered {ds : List Document} {f : Fault}
    (hq : Select.ofText statement.text = .ok q)
    (hm : matched s name q statement options.crossPartition = .ok ds)
    (hd : deliver settings q options ds = .error f) :
    query settings name statement options s = .error f := by
  rw [matched] at hm
  split at hm
  · cases hm
  · rename_i c hc
    obtain ⟨ds', hmatching, hm⟩ := ok_of_bind hm
    split at hm
    · cases hm
    · rename_i hspan
      cases hm
      simp only [query, hq, hc, bind, Except.bind, hmatching, if_neg hspan, hd]

/-- Records are delivered slice by slice. -/
theorem deliver_all {ds : List Document} {place : Nat} (hall : q.projection = .all)
    (hp : placeOf options.continuation = .ok place) :
    deliver settings q options ds
      = .ok ((slice (sorted q ds) place (limit settings options)).content,
        (slice (sorted q ds) place (limit settings options)).next.map tokenOf) := by
  simp only [deliver, hall, hp, bind, Except.bind]
  rfl

/-- Their number is delivered at once. -/
theorem deliver_count {ds : List Document} {n : String} (hcount : q.projection = .count n) :
    deliver settings q options ds = .ok ([countRecord n ds.length], none) := by
  simp only [deliver, hcount]

/-- What keeps a store from delivering is the continuation alone. -/
theorem fault_of_deliver {ds : List Document} {f : Fault}
    (h : deliver settings q options ds = .error f) : ∃ token, f = .badContinuation token := by
  rw [deliver] at h
  split at h
  · cases h
  · cases hplace : placeOf options.continuation with
    | ok place =>
      rw [hplace] at h
      cases h
    | error g =>
      rw [hplace] at h
      cases h
      unfold placeOf at hplace
      split at hplace
      · cases hplace
      · split at hplace
        · cases hplace
        · exact ⟨_, (Except.error.inj hplace).symm⟩

/-- A query about a collection that exists is refused for itself. -/
theorem status_of_query {c : Collection} {f : Fault} (hc : s.collection? name = some c)
    (h : query settings name statement options s = .error f) :
    f.status = BackendError.badRequest := by
  rw [query] at h
  split at h
  case h_2 =>
    cases h
    rfl
  case h_1 q _ =>
    change (match s.collection? name with
      | none => _
      | some c => _) = _ at h
    rw [hc] at h
    -- once the text is read: a parameter without a value, many partitions, or no such place
    rcases error_of_bind h with h | ⟨ds, -, h⟩
    · rw [matching] at h
      split at h
      · cases h
      · cases h
        rfl
    · split at h
      · cases h
        rfl
      · rcases error_of_bind h with h | ⟨part, -, h⟩
        · obtain ⟨token, rfl⟩ := fault_of_deliver settings h
          rfl
        · cases h

/-! ## The matches of a written statement -/

/-- The records of a collection that meet some criteria, if they may be had. -/
def found (s : Store) (name : String) (c : Criteria) (crossPartition : Bool) :
    Except Fault (List Document) :=
  match s.collection? name with
  | none => .error (.noCollection name)
  | some coll =>
    let ds := coll.records.filter c.meets
    if !crossPartition && coll.isPartitioned && spansPartitions coll ds then .error .manyPartitions
    else .ok ds

/-- What a statement matches does not depend on its text, only on the criteria it was written
from.  So it is the same for records and for their number. -/
theorem matched_written {shape : Statement.Shape} {query : Query}
    (h : Statement.ofQuery shape query = .ok statement) (crossPartition : Bool) :
    matched s name (query.select shape) statement crossPartition
      = found s name query.criteria crossPartition := by
  rw [matched, found]
  cases s.collection? name with
  | none => rfl
  | some c =>
    have hmatching : matching c (query.select shape) statement
        = .ok (c.records.filter query.criteria.meets) := by
      rw [matching, Dialect.matching_written h]
    simp only [hmatching, bind, Except.bind]

/-! ## Sizes -/

/-- The most elements that a list in memory has. -/
def maxLength : Nat := 9223372036854775807

/-- Every collection is a list in memory. -/
def FitsMemory (s : Store) : Prop :=
  ∀ e ∈ s.collections, e.2.records.length ≤ maxLength

theorem maxLength_le : maxLength ≤ maxPlace := by decide

/-- A continuation can name every place in a list. -/
theorem placeOf_tokenOf_of_lt {place length : Nat} (h : place < length) (hsize : length ≤ maxLength) :
    placeOf (some (tokenOf place)) = .ok place :=
  placeOf_tokenOf (Nat.le_trans (Nat.le_of_lt h) (Nat.le_trans hsize maxLength_le))

/-- What is found is the part of a collection that meets the criteria. -/
theorem eq_filter_of_found {c : Criteria} {crossPartition : Bool} {ds : List Document}
    (h : found s name c crossPartition = .ok ds) :
    ∃ coll, s.collection? name = some coll ∧ ds = coll.records.filter c.meets := by
  rw [found] at h
  cases hc : s.collection? name with
  | none =>
    rw [hc] at h
    cases h
  | some coll =>
    rw [hc] at h
    dsimp only at h
    split at h
    · cases h
    · exact ⟨coll, rfl, (Except.ok.inj h).symm⟩

/-- What may not be had: there is no such collection, or the matches lie in several partitions. -/
theorem fault_of_found {c : Criteria} {cross : Bool} {f : Store.Fault}
    (h : found s name c cross = .error f) : f = .noCollection name ∨ f = .manyPartitions := by
  rw [found] at h
  cases hc : s.collection? name with
  | none =>
    rw [hc] at h
    exact .inl (Except.error.inj h).symm
  | some coll =>
    rw [hc] at h
    dsimp only at h
    split at h
    · exact .inr (Except.error.inj h).symm
    · cases h

/-- In a collection that exists only the partitions stand in the way. -/
theorem manyPartitions_of_found {c : Criteria} {cross : Bool} {f : Store.Fault} {coll : Collection}
    (hc : s.collection? name = some coll) (h : found s name c cross = .error f) :
    f = .manyPartitions := by
  rw [found, hc] at h
  dsimp only at h
  split at h
  · exact (Except.error.inj h).symm
  · cases h

/-- What is found in a store that fits into memory can be counted, and a continuation can name
every place in it. -/
theorem length_le_of_found {c : Criteria} {crossPartition : Bool} {ds : List Document}
    (hs : s.FitsMemory) (h : found s name c crossPartition = .ok ds) : ds.length ≤ maxLength := by
  obtain ⟨coll, hc, rfl⟩ := eq_filter_of_found h
  exact Nat.le_trans (List.length_filter_le _ _) (hs _ (Fields.mem_of_get? hc))

end DocQuery.Store
