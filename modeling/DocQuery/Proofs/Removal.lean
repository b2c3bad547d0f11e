/-
  Deleting what a query matches.

  The client finds the matches, plans for each of them where it is to be deleted, and then deletes
  one by one, from a store that changes meanwhile.  A deletion names id, partition and version; it
  hits the record it was planned for, since no other has that id there, neither at first nor when
  some are gone.

  Deleting finds with the statement that finding has, and sorts the same matches by the same keys.
  So it is said of deleting what comes of it as finding comes to something; and that finding does
  come to something is said where the sort of the query orders the matches, as for finding alone.

  1. `Collection.Aims`: a deletion that hits one record, whatever else is taken out;
  2. `deleteEach_leads`: the deletions, by induction on the plan;
  3. `aim`: what is planned for a record, and that it hits the record;
  4. `Fit`: records that there are plans for, and `delete_unplanned`, `delete_unmapped`,
     `delete_of_plan`: what comes of plans, over any backend;
  5. `delete_leads`, `delete_refused`: the whole operation, be all matches fit for it or not;
  6. `delete_removes`: both, after any calls, beside what finding comes to.
-/
import DocQuery.Proofs.Finding
import DocQuery.Proofs.Partitions

namespace DocQuery

/-! ## Deletions that hit -/

/-- A deletion is aimed at a record: no other is at its id and partition, and the record has the
version asked for. -/
structure Collection.Aims (c : Collection) (d : Document) (p : String × Placement) : Prop where
  hit : c.isAt p.1 p.2.partitionKey d = true
  alone : c.records.Pairwise fun a b =>
    ¬ (c.isAt p.1 p.2.partitionKey a = true ∧ c.isAt p.1 p.2.partitionKey b = true)
  fits : checkVersion p.2.version (some d) p.1 = .ok ()

namespace Collection.Aims

variable {c : Collection} {d : Document} {p : String × Placement} {before behind : List Document}

/-- A plan keeps aiming at its record while other records are taken out. -/
theorem sublist (h : c.Aims d p) {records : List Document} (hsub : records.Sublist c.records) :
    Aims { c with records } d p :=
  ⟨h.hit, h.alone.sublist hsub, h.fits⟩

/-- A plan that aims at a record finds it at its own place, since no other has its id and partition.
-/
theorem position?_eq (h : c.Aims d p) (hrecords : c.records = before ++ d :: behind) :
    c.position? p.1 p.2.partitionKey = some before.length := by
  refine position?_of_parts hrecords h.hit fun e he => ?_
  have halone := h.alone
  rw [hrecords] at halone
  have hnot := (List.pairwise_append.mp halone).2.2 e he d List.mem_cons_self
  rw [← Bool.not_eq_true]
  exact fun hat => hnot ⟨hat, h.hit⟩

/-- A deletion that aims at a record takes out that one, wherever it stands, and succeeds. -/
theorem delete_eq (h : c.Aims d p) (hrecords : c.records = before ++ d :: behind) {s : Store}
    {name : String} (hc : s.collection? name = some c) :
    Store.delete name p.1 p.2 s
      = (.ok ⟨none, Store.writeCharge⟩, s.put name { c with records := before ++ behind }) := by
  have herase : c.erase before.length = { c with records := before ++ behind } := by
    rw [← records_erase hrecords]
    rfl
  rw [Store.delete]
  simp only [hc, h.position?_eq hrecords, getElem?_of_parts hrecords, h.fits, herase]

end Collection.Aims

/-- A collection without the records that meet some criteria. -/
def Collection.without (c : Collection) (criteria : Criteria) : Collection :=
  { c with records := c.records.filter fun d => !criteria.meets d }

namespace Store

theorem put_put (s : Store) (name : String) (c c' : Collection) :
    (s.put name c).put name c' = s.put name c' := by
  rw [put, put, put, Fields.insert_insert]

/-- Putting in a collection that is there already changes nothing. -/
theorem put_of_collection? {s : Store} {name : String} {c : Collection}
    (hc : s.collection? name = some c) : s.put name c = s := by
  rw [put, Fields.insert_of_get? hc]

end Store

namespace Client

open Store (Settings sorted)

variable {settings : Settings} {database : String} {metrics : Bool} {s : Store}
variable {q : Query} {statement : Statement} {name : String} {c : Collection} {m : Metadata}

/-- **Deletions that are aimed at all records that meet some criteria take out those.**  Induction
on the records; each deletion leaves the others aimed. -/
theorem deleteEach_leads {criteria : Criteria} :
    ∀ {ds : List Document} {plan : List (String × Placement)} {c : Collection} {s : Store},
      s.collection? name = some c → ds.Perm (c.records.filter criteria.meets) →
      Paired c.Aims ds plan →
      ((ofStore settings database metrics).deleteEach name plan).Leads s (.ok ())
        (s.put name (c.without criteria)) := by
  intro ds
  induction ds with
  | nil =>
    intro plan c s hc hperm hplan
    cases hplan
    -- nothing is left to delete, so the collection is what it shall be
    have hkept : c.without criteria = c := by
      have hnone := List.filter_eq_nil_iff.mp hperm.nil_eq.symm
      have hall : c.records.filter (fun d => !criteria.meets d) = c.records := by
        refine List.filter_eq_self.mpr fun d hd => ?_
        rw [Bool.eq_false_iff.mpr (hnone d hd)]
        rfl
      rw [Collection.without, hall]
    rw [hkept, Store.put_of_collection? hc]
    exact Access.Settles.leads (.pure ())
  | cons d ds ih =>
    intro plan c s hc hperm hplan
    cases hplan with
    | @cons _ p _ plan haim hplan =>
      have hmem : d ∈ c.records.filter criteria.meets := hperm.mem_iff.mp List.mem_cons_self
      obtain ⟨hd, hmeets⟩ := List.mem_filter.mp hmem
      obtain ⟨before, behind, hrecords⟩ := List.append_of_mem hd
      have hsub : (before ++ behind).Sublist c.records := by
        rw [hrecords]
        exact (List.sublist_cons_self d behind).append_left before
      -- what is left to delete is what is left of the matches
      have hrest : ds.Perm ((before ++ behind).filter criteria.meets) := by
        rw [hrecords, List.filter_append, List.filter_cons_of_pos hmeets] at hperm
        rw [List.filter_append]
        exact (hperm.trans List.perm_middle).cons_inv
      have hwithout : ({ c with records := before ++ behind } : Collection).without criteria
          = c.without criteria := by
        have hskip : (d :: behind).filter (fun d => !criteria.meets d)
            = behind.filter fun d => !criteria.meets d :=
          List.filter_cons_of_neg (by rw [hmeets]; exact Bool.false_ne_true)
        rw [Collection.without, Collection.without, hrecords, List.filter_append,
          List.filter_append, hskip]
      have hfirst := Access.Leads.call (ofStore settings database metrics) .delete name
        RecordAnswer.observed ((Store.backend settings).delete name p.1 p.2) s
      have hdelete : (Store.backend settings).delete name p.1 p.2 s
          = (.ok ⟨none, Store.writeCharge⟩,
            s.put name { c with records := before ++ behind }) := by
        show (Store.reported (Store.delete name p.1 p.2 s).1, (Store.delete name p.1 p.2 s).2) = _
        rw [haim.delete_eq hrecords hc]
        rfl
      rw [hdelete] at hfirst
      have hc' : (s.put name { c with records := before ++ behind }).collection? name
          = some { c with records := before ++ behind } := Store.collection?_put s name _ s.writes
      -- the other plans still aim at their records, now that this one is gone
      have hothers := ih hc' hrest (hplan.imp fun _ _ _ h => h.sublist hsub)
      rw [hwithout, Store.put_put] at hothers
      rw [deleteEach]
      exact .bind hfirst hothers

/-! ## Plans -/

/-- Where a record is to be deleted. -/
def aim (m : Metadata) (name : String) (d : Document) :
    Except AccessError (String × Placement) :=
  match d.id? with
  | none => .error (.mapping (.noId name))
  | some id => ((m.placement d none).mapError .invalidArgument).map fun target => (id, target)

/-- Plans are made record by record, up to the first without one. -/
theorem planned_settles {σ : Type} {state : σ} (m : Metadata) (name : String)
    (ds : List Document) :
    (planned m name ds : Access σ _).Settles state (ds.mapM (aim m name)) := by
  induction ds with
  | nil => exact .pure []
  | cons d ds ih =>
    rw [planned, List.mapM_cons, aim]
    cases d.id? with
    | none => exact .given (.error (.mapping (.noId name)))
    | some id =>
      have hplaced : (Access.checked (m.placement d none) : Access σ _).Settles state _ :=
        .checking (m.placement d none)
      cases hp : m.placement d none with
      | error f =>
        rw [hp] at hplaced
        exact .bind_error hplaced
      | ok target =>
        rw [hp] at hplaced
        refine .bind hplaced ?_
        cases hrest : ds.mapM (aim m name) with
        | error e =>
          rw [hrest] at ih
          exact .bind_error ih
        | ok plan =>
          rw [hrest] at ih
          exact .bind ih (.pure _)

/-- A record has the version that is asked for to delete it. -/
theorem checkVersion_expected (m : Metadata) (d : Document) (id : String) :
    checkVersion (m.expectedVersion d) (some d) id = .ok () := by
  rw [Metadata.expectedVersion]
  split
  · cases hversion : d.version? with
    | none => rfl
    | some t =>
      rw [checkVersion]
      simp only [Option.bind_some, hversion, if_pos]
  · rfl

/-- **What is planned for a record hits it.** -/
theorem aims_of_aim (hkeyed : c.Keyed) (hsplit : c.SplitBy m.partitionField) {d : Document}
    (hd : d ∈ c.records) {p : String × Placement} (h : aim m name d = .ok p) : c.Aims d p := by
  obtain ⟨id, hid⟩ := hkeyed.named d hd
  rw [aim, (requireId_ok_iff.mp hid).1] at h
  cases hplacement : m.placement d none with
  | error f =>
    rw [hplacement] at h
    cases h
  | ok target =>
    rw [hplacement] at h
    obtain rfl := Except.ok.inj h
    obtain ⟨key, hkey, htarget⟩ := ok_of_bind hplacement
    obtain rfl := Except.ok.inj htarget
    obtain rfl := hsplit.partitionKey_eq hkey
    exact ⟨hsplit.isAt_own_partition hd hid,
      hkeyed.once hsplit.steady id _ (hsplit.isPlain_partitionOf hd),
      checkVersion_expected m d id⟩

/-! ## Records that may be deleted -/

/-- A record that a client may delete: it is an entity of the type, and there is something in its
partition field, if the type has one. -/
structure Deletable {α : Type} (e : EntityType α) (m : Metadata) (d : Document) : Prop where
  mapped : ∃ a, e.read d = .ok a
  placed : ∀ f, m.partitionField = some f → ∃ v, d.fieldAt f = some v ∧ v ≠ .null

/-- There is a plan for a record as there is a partition that a client can name. -/
theorem aim_ok_iff {d : Document} {id : String} (hid : d.id? = some id) :
    (∃ p, aim m name d = .ok p)
      ↔ ∀ f, m.partitionField = some f → ∃ v, d.fieldAt f = some v ∧ v ≠ .null := by
  -- a record with an id lacks nothing but the key of its partition
  have haim : (∃ p, aim m name d = .ok p) ↔ ∃ key, m.partitionKey d none = .ok key := by
    rw [aim, hid, Metadata.placement]
    cases m.partitionKey d none with
    | error f =>
      constructor
      · rintro ⟨_, h⟩
        cases h
      · rintro ⟨_, h⟩
        cases h
    | ok key => exact ⟨fun _ => ⟨key, rfl⟩, fun _ => ⟨_, rfl⟩⟩
  rw [haim]
  constructor
  · rintro ⟨key, hkey⟩ f hf
    rcases Metadata.partitionKey_ok_iff.mp hkey with ⟨hm, -⟩ | ⟨f', v, hm, hv, hnull, -⟩
    · rw [hm] at hf
      cases hf
    · obtain rfl := Option.some.inj (hm.symm.trans hf)
      exact ⟨v, hv, hnull⟩
  · intro h
    cases hm : m.partitionField with
    | none => exact ⟨.none, Metadata.partitionKey_ok_iff.mpr (.inl ⟨hm, rfl⟩)⟩
    | some f =>
      obtain ⟨v, hv, hnull⟩ := h f hm
      exact ⟨.value v, Metadata.partitionKey_ok_iff.mpr (.inr ⟨f, v, hm, hv, hnull, rfl⟩)⟩

/-- The plan for a record names the id of that record. -/
theorem id?_of_aim {d : Document} {p : String × Placement} (h : aim m name d = .ok p) :
    d.id? = some p.1 := by
  rw [aim] at h
  cases hid : d.id? with
  | none =>
    rw [hid] at h
    cases h
  | some id =>
    rw [hid] at h
    obtain ⟨target, -, rfl⟩ := ok_of_map h
    rfl

variable {α : Type} {e : EntityType α}

/-- A record that may be deleted by a plan, wherever it comes from: it has an id. -/
def Fit (e : EntityType α) (m : Metadata) (d : Document) : Prop :=
  d.id? ≠ none ∧ Deletable e m d

/-- All records are fit as there are plans and entities for all of them. -/
theorem fit_iff (name : String) (ds : List Document) :
    (∀ d ∈ ds, Fit e m d)
      ↔ (∃ plan, ds.mapM (aim m name) = .ok plan) ∧ ∃ list, ds.mapM e.read = .ok list := by
  rw [mapM_ok_iff, mapM_ok_iff]
  constructor
  · intro h
    refine ⟨fun d hd => ?_, fun d hd => (h d hd).2.mapped⟩
    obtain ⟨hid, hdeletable⟩ := h d hd
    obtain ⟨id, hid⟩ := Option.ne_none_iff_exists'.mp hid
    exact (aim_ok_iff hid).mpr hdeletable.placed
  · rintro ⟨hplan, hlist⟩ d hd
    obtain ⟨p, hp⟩ := hplan d hd
    have hid := id?_of_aim hp
    exact ⟨Option.ne_none_iff_exists'.mpr ⟨_, hid⟩, hlist d hd, (aim_ok_iff hid).mp ⟨p, hp⟩⟩

/-- Records of a collection have ids. -/
theorem fit_of_deletable (hkeyed : c.Keyed) {d : Document} (hd : d ∈ c.records)
    (h : Deletable e m d) : Fit e m d := by
  obtain ⟨id, hid⟩ := hkeyed.named d hd
  exact ⟨Option.ne_none_iff_exists'.mpr ⟨id, (requireId_ok_iff.mp hid).1⟩, h⟩

/-! ## From plans to deletions -/

section Gathered

variable {σ : Type} {client : Client σ} {state state₁ state' : σ} {ds : List Document}
  (hname : Text.isBlank name = false)
  (hm : Metadata.ofDeclaration e.toEntityDeclaration = .ok m)
  (hst : Statement.ofQuery .find q = .ok statement)
  (hfound : (client.queryAll .find name statement (fansOut m q)).Leads state (.ok ds) state₁)

include hname hm hst

/-- Nothing is done to the records until they are known. -/
theorem delete_of_queryAll {r : Except AccessError (List α)}
    (hfound : (client.queryAll .find name statement (fansOut m q)).Leads state (.ok ds) state₁)
    (h : (do
      let plan ← planned m name ds
      let entities ← Access.mapEach e.read ds
      client.deleteEach name plan
      pure entities : Access σ (List α)).Leads state₁ r state') :
    (client.delete e name q).Leads state r state' := by
  have hcheck : requireText "collection name" name = .ok () := requireText_ok_iff.mpr hname
  rw [delete]
  exact .bind (Access.Settles.checked hcheck).leads (.bind (Access.Settles.metadata hm).leads
    (.bind (Access.Settles.compiled hst).leads (.bind hfound h)))

include hfound

/-- If one of them has no plan that is the end of it. -/
theorem delete_unplanned {err : AccessError} (hplan : ds.mapM (aim m name) = .error err) :
    (client.delete e name q).Leads state (.error err) state₁ := by
  have hplanned : (planned m name ds : Access σ _).Settles state₁ _ := planned_settles m name ds
  rw [hplan] at hplanned
  exact delete_of_queryAll hname hm hst hfound hplanned.bind_error.leads

/-- If one of them is no entity that is the end of it. -/
theorem delete_unmapped {plan : List (String × Placement)} {f : MappingFault}
    (hplan : ds.mapM (aim m name) = .ok plan) (hlist : ds.mapM e.read = .error f) :
    (client.delete e name q).Leads state (.error (.mapping f)) state₁ := by
  have hplanned : (planned m name ds : Access σ _).Settles state₁ _ := planned_settles m name ds
  have hmapped : (Access.mapEach e.read ds : Access σ _).Settles state₁ _ := .mapEach e.read ds
  rw [hplan] at hplanned
  rw [hlist] at hmapped
  exact delete_of_queryAll hname hm hst hfound (hplanned.bind hmapped.bind_error).leads

/-- Otherwise deleting is what is done by the plan. -/
theorem delete_of_plan {plan : List (String × Placement)} {list : List α}
    {r : Except AccessError Unit} (hplan : ds.mapM (aim m name) = .ok plan)
    (hlist : ds.mapM e.read = .ok list) (h : (client.deleteEach name plan).Leads state₁ r state') :
    (client.delete e name q).Leads state (r.map fun _ => list) state' := by
  have hplanned : (planned m name ds : Access σ _).Settles state₁ _ := planned_settles m name ds
  have hmapped : (Access.mapEach e.read ds : Access σ _).Settles state₁ _ := .mapEach e.read ds
  rw [hplan] at hplanned
  rw [hlist] at hmapped
  refine delete_of_queryAll hname hm hst hfound (.bind hplanned.leads (.bind hmapped.leads ?_))
  cases r with
  | error err => exact .bind_error h
  | ok _ => exact .bind h (Access.Settles.pure list).leads

end Gathered

/-! ## Deleting -/

/-- The matches of a query in a collection, in the order of the query. -/
def sortedMatches (c : Collection) (q : Query) : List Document :=
  sorted (q.select .find) (c.records.filter q.criteria.meets)

/-- Sorting the matches loses none and repeats none. -/
theorem sortedMatches_perm (c : Collection) (q : Query) :
    (sortedMatches c q).Perm (c.records.filter q.criteria.meets) :=
  sorted_perm _ _

theorem mem_sortedMatches {d : Document} :
    d ∈ sortedMatches c q ↔ d ∈ c.records ∧ q.criteria.meets d = true := by
  rw [(sortedMatches_perm c q).mem_iff, List.mem_filter]

section Deleting

variable (hname : Text.isBlank name = false)
  (hm : Metadata.ofDeclaration e.toEntityDeclaration = .ok m)
  (hst : Statement.ofQuery .find q = .ok statement)
  (hcap : ∀ n, settings.maxItems = some n → 1 ≤ n)
  (hsize : (c.records.filter q.criteria.meets).length ≤ Store.maxLength)
  (hc : s.collection? name = some c) (hkeyed : c.Keyed) (hsplit : c.SplitBy m.partitionField)

include hst hcap hsize hc hsplit

/-- Querying delivers the matches. -/
theorem queryAll_matches : ((ofStore settings database metrics).queryAll .find name statement
    (fansOut m q)).Leads s (.ok (sortedMatches c q)) s :=
  (queryAll_settles hcap hsize hst (hsplit.found_ok hc q)).leads

include hname hm hkeyed

/-- **If all matches may be deleted they are, and no other record.** -/
theorem delete_leads (hall : ∀ d ∈ sortedMatches c q, Deletable e m d) :
    ∃ list, (sortedMatches c q).mapM e.read = .ok list
      ∧ ((ofStore settings database metrics).delete e name q).Leads s (.ok list)
        (s.put name (c.without q.criteria)) := by
  have hmem : ∀ d ∈ sortedMatches c q, d ∈ c.records := fun d hd => (mem_sortedMatches.mp hd).1
  obtain ⟨⟨plan, hplan⟩, list, hlist⟩ := (fit_iff name (sortedMatches c q)).mp
    fun d hd => fit_of_deletable hkeyed (hmem d hd) (hall d hd)
  have haims : Paired c.Aims (sortedMatches c q) plan :=
    (paired_of_mapM hplan).imp fun d hd p haim => aims_of_aim hkeyed hsplit (hmem d hd) haim
  exact ⟨list, hlist, delete_of_plan hname hm hst
    (queryAll_matches hst hcap hsize hc hsplit) hplan hlist
    (deleteEach_leads hc (sortedMatches_perm c q) haims)⟩

omit hkeyed

end Deleting

/-- Deliveries, by the city they go to. -/
def delivery : EntityType Document :=
  .records { name := "Delivery", collection := "deliveries", partitionFields := ["to.city"],
             versioned := true }

/-- What is known about them. -/
def deliveryMetadata : Metadata :=
  ⟨"deliveries", some "to.city", true, 400⟩

/-- Deliveries of one number go to two cities, and one goes nowhere yet. -/
def dispatch : List Store.Call :=
  [.createCollection ⟨"deliveries", some "to.city", 400⟩,
    .seed "deliveries"
      [[("id", .text "d1"), ("to", .doc [("city", .text "Oslo")]), ("late", .bool true)],
        [("id", .text "d1"), ("to", .doc [("city", .text "Rome")]), ("late", .bool true)],
        [("id", .text "d2"), ("to", .doc [("city", .text "Oslo")]), ("late", .bool false)],
        [("id", .text "d3"), ("to", .null)]]]

/-- The collection then. -/
def deliveries : Collection where
  properties := ⟨"deliveries", some "to.city", 400⟩
  records :=
    [[("id", .text "d1"), ("to", .doc [("city", .text "Oslo")]), ("late", .bool true),
        ("_etag", .text "0"), ("_ts", .int64 0)],
      [("id", .text "d1"), ("to", .doc [("city", .text "Rome")]), ("late", .bool true),
        ("_etag", .text "1"), ("_ts", .int64 0)],
      [("id", .text "d2"), ("to", .doc [("city", .text "Oslo")]), ("late", .bool false),
        ("_etag", .text "2"), ("_ts", .int64 0)],
      [("id", .text "d3"), ("to", .null), ("_etag", .text "3"), ("_ts", .int64 0)]]

/-- Late deliveries, those to Rome first. -/
def lateDeliveries : Query where
  criteria := .compare .eq "late" (.bool true)
  sort := [⟨"to.city", .descending⟩]

/-- The city is a text or null throughout, and the path to it is one that store and client share. -/
theorem deliveries_splitBy : deliveries.SplitBy deliveryMetadata.partitionField := by
  refine ⟨rfl, ?_, ?_⟩
  · rintro f ⟨⟩
    exact ⟨by decide, by decide, by decide, by decide⟩
  · rintro f ⟨⟩ d hd v hv
    simp only [deliveries, List.mem_cons, List.not_mem_nil, or_false] at hd
    rcases hd with rfl | rfl | rfl | rfl <;> cases hv
    all_goals exact .text _

theorem fitsMemory_deliveries : (Store.after oneByOne dispatch {}).FitsMemory := by
  have hafter : (Store.after oneByOne dispatch {}).collections = [("deliveries", deliveries)] := rfl
  intro entry hentry
  rw [hafter] at hentry
  rw [List.mem_singleton.mp hentry]
  decide

/-- Late deliveries go somewhere. -/
theorem deletable_late : ∀ d ∈ deliveries.records, lateDeliveries.criteria.meets d = true →
    Deletable delivery deliveryMetadata d := by
  intro d hd hmeets
  simp only [deliveries, List.mem_cons, List.not_mem_nil, or_false] at hd
  rcases hd with rfl | rfl | rfl | rfl
  · refine ⟨⟨_, rfl⟩, ?_⟩
    rintro f ⟨⟩
    exact ⟨_, rfl, nofun⟩
  · refine ⟨⟨_, rfl⟩, ?_⟩
    rintro f ⟨⟩
    exact ⟨_, rfl, nofun⟩
  · cases hmeets
  · cases hmeets

end Client

end DocQuery
