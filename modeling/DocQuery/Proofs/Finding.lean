/-
  What finding finds.

  An answer of a store may be cut short, and finding then follows the continuations.  Put
  together the slices are the whole answer again, so what is found is what the criteria say,
  however the store cuts.

  Each answer is cut from the matches as they are sorted anew, so the slices fit only because one
  sort leaves one list.  That it leaves one at all is a matter of the comparison: what a query
  finds is said outright where its sort orders the matches (`Query.Orders`), which it does without
  a sort, and without doubles and decimals to sort by; for any other sort it is said of the records
  that are found, if any are delivered, and not of their order.

  1. `query_settles`, `query_settles_fault`: one answer of the store;
  2. `follow_settles`: the loop, from any place in the answer, by induction on the answers allowed;
  3. `queryAll_settles`, `find_settles`: all records, and the whole operation, for entities of any
     type;
  4. `find_fault`: the same where there is no such collection, or too many partitions;
  5. `find_records`: records of no type in particular, by the meaning of the criteria.
-/
import DocQuery.Proofs.Access
import DocQuery.Proofs.Slices
import DocQuery.Proofs.Sorting

namespace DocQuery.Client

open Dialect (Select)
open Store (Settings found fault_of_found sorted slice limit maxLength placeOf tokenOf slice_none
  slice_some)

variable {settings : Settings} {database : String} {metrics : Bool} {s : Store}
variable {q : Query} {statement : Statement} {name : String}

/-! ## Answers -/

/-- A query for records settles with a slice of what was found. -/
theorem query_settles (settings : Settings) (database : String) (metrics : Bool) (op : Operation)
    {options : QueryOptions} {ds : List Document} {place : Nat}
    (hst : Statement.ofQuery .find q = .ok statement)
    (hf : found s name q.criteria options.crossPartition = .ok ds)
    (hp : placeOf options.continuation = .ok place) :
    ∃ a : QueryAnswer,
      ((ofStore settings database metrics).query op name statement
        options).Settles s (.ok a)
      ∧ a.records = (slice (sorted (q.select .find) ds) place (limit settings options)).content
      ∧ a.continuation
        = (slice (sorted (q.select .find) ds) place (limit settings options)).next.map tokenOf := by
  have hm : Store.matched s name (q.select .find) statement options.crossPartition = .ok ds := by
    rw [Store.matched_written hst, hf]
  obtain ⟨a, ha, hrecords, hnext⟩ := Store.query_of_matched settings
    (Dialect.ofText_written hst) hm (Store.deliver_all settings rfl hp)
  refine ⟨a, ?_, hrecords, hnext⟩
  have hsettles := settles_query settings database metrics op name statement options s
  rw [ha] at hsettles
  exact hsettles

/-- A query that may not have its matches settles with the fault, be it for records or for their
number. -/
theorem query_settles_fault {shape : Statement.Shape} (op : Operation) {options : QueryOptions}
    {f : Store.Fault} (hst : Statement.ofQuery shape q = .ok statement)
    (hf : found s name q.criteria options.crossPartition = .error f) :
    ((ofStore settings database metrics).query op name statement
      options).Settles s (.error (.translate op f.error)) := by
  have hm : Store.matched s name (q.select shape) statement options.crossPartition = .error f := by
    rw [Store.matched_written hst, hf]
  have hsettles := settles_query settings database metrics op name statement options s
  rw [Store.query_of_fault settings (Dialect.ofText_written hst) hm] at hsettles
  exact hsettles

/-! ## Following continuations -/

/-- Sorting loses none of the matches, and repeats none. -/
theorem sorted_perm (q : Select) (ds : List Document) : (sorted q ds).Perm ds := by
  rw [sorted]
  split
  · exact .refl _
  · exact sortBy_perm _ _

theorem length_sorted (q : Select) (ds : List Document) : (sorted q ds).length = ds.length :=
  (sorted_perm q ds).length_eq

/-- **From any place, the loop delivers all there is from there on.**  Induction on the answers
allowed: each delivers something, so as many as there are records suffice. -/
theorem follow_settles {op : Operation} {cross : Bool} {ds : List Document}
    (hcap : ∀ n, settings.maxItems = some n → 1 ≤ n) (hsize : ds.length ≤ maxLength)
    (hst : Statement.ofQuery .find q = .ok statement)
    (hf : found s name q.criteria cross = .ok ds) :
    ∀ (rounds place : Nat) (options : QueryOptions), options.crossPartition = cross →
      options.maxItems = none → placeOf options.continuation = .ok place →
      ds.length < rounds + place →  place ≤ ds.length →
      ((ofStore settings database metrics).follow op name statement rounds
        options).Settles s (.ok ((sorted (q.select .find) ds).drop place)) := by
  intro rounds
  induction rounds with
  | zero =>
    intro place options _ _ _ hlt hle
    omega
  | succ rounds ih =>
    intro place options hcross hmax hp hlt hle
    subst hcross
    obtain ⟨a, ha, hrecords, hnext⟩ := query_settles settings database metrics op hst hf hp
    have hlimit : limit settings options = settings.maxItems := by rw [limit, hmax]; rfl
    rw [follow]
    refine .bind (.attempt ha) (.bind (.given (.ok a)) ?_)
    rw [hrecords, hnext, hlimit]
    -- what comes next hangs on the limit of the store alone
    cases hn : settings.maxItems with
    | none =>
      rw [slice_none]
      exact .pure _
    | some n =>
      have hpos := hcap n hn
      rw [slice_some, length_sorted]
      by_cases hmore : place + n < ds.length
      · rw [if_pos hmore]
        have hplace : placeOf (some (tokenOf (place + n))) = .ok (place + n) :=
          Store.placeOf_tokenOf_of_lt hmore hsize
        -- the next answer begins where this one ended
        have hrest := ih (place + n) { options with continuation := some (tokenOf (place + n)) }
          rfl hmax hplace (by omega) (by omega)
        refine .bind hrest ?_
        rw [← List.drop_drop, List.take_append_drop]
        exact .pure _
      · rw [if_neg hmore]
        -- nothing is left, so this is the last answer
        have hlast : ((sorted (q.select .find) ds).drop place).take n
            = (sorted (q.select .find) ds).drop place :=
          List.take_of_length_le (by rw [List.length_drop, length_sorted]; omega)
        rw [hlast]
        exact .pure _

/-- The answers allowed by a store suffice for each of its collections. -/
theorem length_lt_rounds {c : Criteria} {cross : Bool} {ds : List Document}
    (hf : found s name c cross = .ok ds) : ds.length < s.size + 1 := by
  obtain ⟨coll, hc, rfl⟩ := Store.eq_filter_of_found hf
  have hmem := Fields.mem_of_get? hc
  have hpart : coll.records.length ≤ s.size := by
    have hpart : coll.records ∈ s.collections.map fun c => c.2.records :=
      List.mem_map.mpr ⟨_, hmem, rfl⟩
    rw [Store.size, List.flatMap_def]
    exact (List.sublist_flatten_of_mem hpart).length_le
  have := List.length_filter_le c.meets coll.records
  omega

/-! ## Finding -/

/-- All records of a query, from one answer to the next. -/
theorem queryAll_settles {op : Operation} {cross : Bool} {ds : List Document}
    (hcap : ∀ n, settings.maxItems = some n → 1 ≤ n) (hsize : ds.length ≤ maxLength)
    (hst : Statement.ofQuery .find q = .ok statement)
    (hf : found s name q.criteria cross = .ok ds) :
    ((ofStore settings database metrics).queryAll op name statement cross).Settles s
      (.ok (sorted (q.select .find) ds)) := by
  refine .bind (.rounds _) ?_
  exact follow_settles hcap hsize hst hf _ 0 _ rfl rfl rfl (length_lt_rounds hf) (Nat.zero_le _)

variable {α : Type}

/-- Finding settles with what was found, sorted and mapped. -/
theorem find_settles {e : EntityType α} {m : Metadata} {ds : List Document}
    (hname : Text.isBlank name = false) (hm : Metadata.ofDeclaration e.toEntityDeclaration = .ok m)
    (hst : Statement.ofQuery .find q = .ok statement)
    (hcap : ∀ n, settings.maxItems = some n → 1 ≤ n) (hsize : ds.length ≤ maxLength)
    (hf : found s name q.criteria (fansOut m q) = .ok ds) :
    ((ofStore settings database metrics).find e name q).Settles s
      (((sorted (q.select .find) ds).mapM e.read).mapError .mapping) := by
  have hcheck : requireText "collection name" name = .ok () := requireText_ok_iff.mpr hname
  rw [find]
  exact .bind (.checked hcheck) (.bind (.metadata hm) (.bind (.compiled hst)
    (.bind (queryAll_settles hcap hsize hst hf) (.mapEach _ _))))

/-! ## Finding where nothing may be found -/

/-- A missing collection is an empty answer for the operations that recover. -/
theorem recover_noCollection {op : Operation} {ρ : Type} {empty : ρ}
    (hop : op.recoversNotFound = true) : AccessError.recover op empty
      (.error (.translate op (Store.Fault.noCollection name).error)) = .ok empty := by
  show (if op.recoversNotFound then Except.ok empty else _) = _
  rw [if_pos hop]

/-- Following ends with what a fault of the first answer is taken for. -/
theorem follow_fault {op : Operation} {options : QueryOptions} {f : Store.Fault} (rounds : Nat)
    (hop : op.recoversNotFound = true) (hst : Statement.ofQuery .find q = .ok statement)
    (hf : found s name q.criteria options.crossPartition = .error f) :
    ((ofStore settings database metrics).follow op name statement (rounds + 1) options).Settles s
      (AccessError.recover op [] (.error (.translate op f.error))) := by
  rw [follow]
  refine .bind (.attempt (query_settles_fault op hst hf)) ?_
  rcases fault_of_found hf with rfl | rfl
  · rw [recover_noCollection hop, recover_noCollection hop]
    exact .bind (.given _) (.pure _)
  · exact .bind_error (.given _)

/-- `find` over a fault of the store: an empty list where the collection is missing, the fault as it
is otherwise. -/
theorem find_fault {e : EntityType α} {m : Metadata} {f : Store.Fault}
    (hname : Text.isBlank name = false)
    (hm : Metadata.ofDeclaration e.toEntityDeclaration = .ok m)
    (hst : Statement.ofQuery .find q = .ok statement)
    (hf : found s name q.criteria (fansOut m q) = .error f) :
    ((ofStore settings database metrics).find e name q).Settles s
      (AccessError.recover .find [] (.error (.translate .find f.error))) := by
  have hcheck : requireText "collection name" name = .ok () := requireText_ok_iff.mpr hname
  have hall : ((ofStore settings database metrics).queryAll .find name statement
      (fansOut m q)).Settles s (AccessError.recover .find [] (.error (.translate .find f.error))) :=
    .bind (.rounds _) (follow_fault s.size rfl hst hf)
  rw [find]
  refine .bind (.checked hcheck) (.bind (.metadata hm) (.bind (.compiled hst) ?_))
  rcases fault_of_found hf with rfl | rfl
  · rw [recover_noCollection rfl] at hall ⊢
    exact .bind hall (.pure [])
  · exact .bind_error hall

/-! ## Records of no type in particular -/

/-- Without keys a list is in order as it is. -/
theorem stablySorted_nil (xs : List Document) : StablySorted [] xs xs := by
  refine ⟨xs.zipIdx, .refl _, List.zipIdx_map_fst _ _, ?_⟩
  have hplaces : (xs.zipIdx.map Prod.snd).Pairwise (· < ·) := by
    rw [List.zipIdx_map_snd]
    exact List.pairwise_lt_range'
  refine (List.Pairwise.of_map Prod.snd (fun _ _ h => h) hplaces).imp ?_
  intro x y hlt
  exact .inr ⟨fun _ hk => absurd hk List.not_mem_nil, hlt⟩

/-- A query delivers in the order of its sort what that sort orders. -/
theorem stablySorted_sorted {ds : List Document} (h : q.Orders ds) :
    StablySorted q.effectiveSort ds (sorted (q.select .find) ds) := by
  have horder : (q.select .find).order = q.effectiveSort.map SortKey.entry := rfl
  rw [Query.Orders] at h
  rw [sorted, horder]
  cases hkeys : q.effectiveSort with
  | nil => exact stablySorted_nil ds
  | cons k ks =>
    rw [hkeys] at h
    exact stablySorted_sortBy h

/-- Over all partitions everything in a collection may be had. -/
theorem found_all {c : Criteria} {coll : Collection} (h : s.collection? name = some coll) :
    found s name c true = .ok (coll.records.filter c.meets) := by
  rw [found, h]
  rfl

/-- Without a field for the partition key a query is about all partitions. -/
theorem fansOut_of_unpartitioned {m : Metadata} (h : m.partitionField = none) (q : Query) :
    fansOut m q = true := by
  rw [fansOut, Metadata.partitionFields, h]
  rfl

/-- **Finding records.**  In a collection with a name that is not blank, a query that can be
written finds the records that meet its criteria, each once, however the store cuts its answers,
provided that its sort orders them; without a sort in order of insertion, and else in the stable
order of the sort.  The sort does order them if no value to sort by is compared after rounding.
If it does not, whatever list is found has those records in it all the same. -/
theorem find_records {e : EntityType Document} {m : Metadata} {coll : Collection}
    {session : Session Store} (hc : session.backend.collection? name = some coll)
    (hname : Text.isBlank name = false) (hmemory : session.backend.FitsMemory)
    (hcap : ∀ n, settings.maxItems = some n → 1 ≤ n)
    (hm : Metadata.ofDeclaration e.toEntityDeclaration = .ok m) (hpart : m.partitionField = none)
    (hread : ∀ d ∈ coll.records, e.read d = .ok d)
    (hst : Statement.ofQuery .find q = .ok statement) :
    (q.Orders (coll.records.filter q.criteria.meets) →
      ∃ l session', ((ofStore settings database metrics).find e name q).run session
          = (.ok l, session')
        ∧ l.Perm (coll.records.filter q.criteria.meets)
        ∧ (q.effectiveSort = [] → l = coll.records.filter q.criteria.meets)
        ∧ StablySorted q.effectiveSort (coll.records.filter q.criteria.meets) l)
    ∧ ((∀ d ∈ coll.records, q.criteria.meets d → SortsExactly q.effectiveSort d) →
      q.Orders (coll.records.filter q.criteria.meets))
    ∧ ∀ l session', ((ofStore settings database metrics).find e name q).run session
          = (.ok l, session') →
        l.Perm (coll.records.filter q.criteria.meets) := by
  have hf : found session.backend name q.criteria (fansOut m q)
      = .ok (coll.records.filter q.criteria.meets) := by
    rw [fansOut_of_unpartitioned hpart]
    exact found_all hc
  have hperm := sorted_perm (q.select .find) (coll.records.filter q.criteria.meets)
  -- records of no type are read as they are
  have hidentity : (sorted (q.select .find) (coll.records.filter q.criteria.meets)).mapM e.read
      = .ok (sorted (q.select .find) (coll.records.filter q.criteria.meets)) := by
    refine mapM_eq_self fun d hd => hread d ?_
    exact (List.mem_filter.mp (hperm.mem_iff.mp hd)).1
  have hsettles : ((ofStore settings database metrics).find e name q).Settles
      session.backend _ :=
    find_settles hname hm hst hcap (Store.length_le_of_found hmemory hf) hf
  rw [hidentity] at hsettles
  obtain ⟨session', hrun, -⟩ := hsettles session rfl
  refine ⟨fun horders => ⟨_, session', hrun, hperm, ?_, stablySorted_sorted horders⟩, ?_, ?_⟩
  · intro hkeys
    have horder : (q.select .find).order = [] := congrArg (List.map SortKey.entry) hkeys
    rw [sorted, horder]
  · intro hexact
    refine Query.orders_of_exact fun d hd => ?_
    obtain ⟨hmem, hmeets⟩ := List.mem_filter.mp hd
    exact hexact d hmem hmeets
  · intro l session'' hrun'
    obtain rfl := Except.ok.inj (congrArg Prod.fst (hrun.symm.trans hrun'))
    exact hperm

/-- A collection may have a blank name, but nothing is found in it: the name is refused before the
store is asked. -/
theorem find_blank_refused :
    (Store.withCollection {} " " none).collection? " "
        = some (Store.plainCollection " " none)
      ∧ (∃ statement, Statement.ofQuery .find { criteria := .all } = .ok statement)
      ∧ ∀ l session', ((ofStore { stamper := ⟨Text.ofNat, fun _ => 0⟩ } "db" false).find
          (.records { name := "Record" }) " " { criteria := .all }).run
        { backend := Store.withCollection {} " " none } ≠ (.ok l, session') := by
  refine ⟨rfl, ⟨_, rfl⟩, ?_⟩
  intro l session' h
  have hrefused : ((ofStore { stamper := ⟨Text.ofNat, fun _ => 0⟩ } "db" false).find
          (.records { name := "Record" }) " " { criteria := .all }).run
        { backend := Store.withCollection {} " " none }
      = (.error (.invalidArgument (.blank "collection name")),
        { backend := Store.withCollection {} " " none }) := rfl
  rw [hrefused] at h
  cases h

/-- A store that answers with one record at a time. -/
def oneByOne : Settings where
  stamper := ⟨Text.ofNat, fun _ => 0⟩
  maxItems := some 1

/-- A store of this size answers with one record at least. -/
theorem oneByOne_allows : ∀ n, oneByOne.maxItems = some n → 1 ≤ n := by
  intro n hn
  cases hn
  decide

/-- People: the second of no age, the fifth of the same age as the first, in numbers of two
widths. -/
def people : Collection where
  properties := ⟨"people", none, 400⟩
  records :=
    [[("id", .text "a"), ("age", .int32 30)], [("id", .text "b")],
      [("id", .text "c"), ("age", .int64 17)], [("id", .text "d"), ("age", .null)],
      [("id", .text "e"), ("age", .int64 30)], [("id", .text "f"), ("age", .int32 41)]]

/-- The people fit in memory. -/
theorem fitsMemory_people : (Store.put {} "people" people).FitsMemory := by
  intro entry hentry
  rw [List.mem_singleton.mp hentry]
  decide

/-- People of a known age that is not below eighteen, the oldest first. -/
def adults : Query where
  criteria := .not (.or [.compare .lt "age" (.int32 18), .isNull "id"])
  sort := [⟨"age", .descending⟩]

/-- Three of them are known to be adults. -/
theorem filter_adults : people.records.filter adults.criteria.meets
    = [[("id", .text "a"), ("age", .int32 30)], [("id", .text "e"), ("age", .int64 30)],
      [("id", .text "f"), ("age", .int32 41)]] := rfl

/-- One record an answer, and what is undefined stays so under `NOT`.  Integers of two widths are
in order. -/
theorem find_records_adults : ∃ l session',
    ((ofStore { stamper := ⟨Text.ofNat, fun _ => 0⟩, maxItems := some 1 } "db" false).find
        (.records { name := "Record" }) "people" adults).run
      { backend := Store.put {} "people" people } = (.ok l, session')
    ∧ l.Perm [[("id", .text "a"), ("age", .int32 30)], [("id", .text "e"), ("age", .int64 30)],
      [("id", .text "f"), ("age", .int32 41)]]
    ∧ StablySorted adults.effectiveSort (people.records.filter adults.criteria.meets) l := by
  obtain ⟨statement, hst⟩ : ∃ statement, Statement.ofQuery .find adults = .ok statement := ⟨_, rfl⟩
  have hread : ∀ d ∈ people.records,
      (EntityType.records { name := "Record" }).read d = .ok d := by
    simp only [people, List.mem_cons, List.not_mem_nil, or_false]
    rintro d (rfl | rfl | rfl | rfl | rfl | rfl) <;> rfl
  have hexact : ∀ d ∈ people.records, adults.criteria.meets d →
      SortsExactly adults.effectiveSort d := by
    intro d hd hmeets k hk v hv
    rw [List.mem_singleton.mp hk] at hv
    have hmem := List.mem_filter.mpr ⟨hd, hmeets⟩
    simp only [filter_adults, List.mem_cons, List.not_mem_nil, or_false] at hmem
    rcases hmem with rfl | rfl | rfl <;> cases hv <;> rfl
  obtain ⟨hfind, horders, -⟩ := @find_records oneByOne "db" false adults statement "people"
    (.records { name := "Record" }) _ people { backend := Store.put {} "people" people } rfl rfl
    fitsMemory_people oneByOne_allows rfl rfl hread hst
  obtain ⟨l, session', hrun, hperm, -, hsorted⟩ := hfind (horders hexact)
  rw [filter_adults] at hperm
  exact ⟨l, session', hrun, hperm, hsorted⟩

end DocQuery.Client
