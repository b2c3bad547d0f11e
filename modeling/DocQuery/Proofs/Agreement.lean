/-
  Finding, counting and asking whether there is anything.

  The three go their own ways: finding follows continuations over as many answers as it takes,
  asking wants one record of the first answer, and counting has the store count.  What they look
  for is the same part of a collection, so they agree on it, and on why it may not be had.

  All three are put in terms of one thing, `Store.found`: the matches of the criteria, or the
  fault for which they may not be had.  Counting is done on that list as it is, asking looks at
  its first record once it is sorted, and finding reads all of it as entities.  A list is empty
  sorted or not, and as long, so agreement is a matter of cases on `found`, with no sort and no
  text in it.

  1. `count_settles`, `exists_settles`: the two other ways, in terms of what was found;
  2. `find_cases`: what finding can come to;
  3. `find_count_exists_agree`: the three together.
-/
import DocQuery.Proofs.Paging

namespace DocQuery.Client

open Store (Settings found sorted slice_some)

variable {settings : Settings} {database : String} {metrics : Bool} {s : Store}
variable {q : Query} {statement : Statement} {name : String} {α : Type}
variable {e : EntityType α} {m : Metadata} {ds : List Document} {f : Store.Fault}

/-! ## Counting -/

/-- Counting settles with the number of what was found.  The store does the counting, over the same
matches that finding would be given, and no sort has a part in it. -/
theorem count_settles (hname : Text.isBlank name = false)
    (hm : Metadata.ofDeclaration e.toEntityDeclaration = .ok m)
    (hst : Statement.ofQuery .count q = .ok statement) (hsize : ds.length ≤ Store.maxLength)
    (hf : found s name q.criteria (fansOut m q) = .ok ds) :
    ((ofStore settings database metrics).count e name q).Settles s (.ok ds.length) := by
  have hcheck : requireText "collection name" name = .ok () := requireText_ok_iff.mpr hname
  rw [count]
  exact .bind (.checked hcheck) (.bind (.metadata hm) (.bind (.compiled hst)
    (countStatement_settles hsize hst hf)))

/-- A count fails with whatever fault the search does.  There is no empty answer to fall back on,
since a collection that is missing has no number of records. -/
theorem count_fault (hname : Text.isBlank name = false)
    (hm : Metadata.ofDeclaration e.toEntityDeclaration = .ok m)
    (hst : Statement.ofQuery .count q = .ok statement)
    (hf : found s name q.criteria (fansOut m q) = .error f) :
    ((ofStore settings database metrics).count e name q).Settles s
      (.error (.translate .count f.error)) := by
  have hcheck : requireText "collection name" name = .ok () := requireText_ok_iff.mpr hname
  rw [count]
  refine .bind (.checked hcheck) (.bind (.metadata hm) (.bind (.compiled hst) ?_))
  rw [countStatement]
  exact .bind_error (query_settles_fault .count hst hf)

/-! ## Asking whether there is anything -/

/-- The first record tells, and a store that answers at all answers with one. -/
theorem exists_settles (hcap : ∀ n, settings.maxItems = some n → 1 ≤ n)
    (hname : Text.isBlank name = false)
    (hm : Metadata.ofDeclaration e.toEntityDeclaration = .ok m)
    (hst : Statement.ofQuery .find q = .ok statement)
    (hf : found s name q.criteria (fansOut m q) = .ok ds) :
    ((ofStore settings database metrics).exists? e name q).Settles s (.ok !ds.isEmpty) := by
  have hcheck : requireText "collection name" name = .ok () := requireText_ok_iff.mpr hname
  have hquery : ∃ a : QueryAnswer,
    ((ofStore settings database metrics).query .exists name statement
      { crossPartition := fansOut m q, maxItems := some 1, metrics }).Settles s (.ok a) ∧ _ ∧ _ :=
    query_settles settings database metrics .exists hst hf rfl
  obtain ⟨a, ha, hrecords, -⟩ := hquery
  have hlimit : Store.limit settings
      { crossPartition := fansOut m q, maxItems := some 1, metrics } = some (width settings 1) :=
    limit_eq 1 none (fansOut m q)
  rw [hlimit, slice_some, List.drop_zero] at hrecords
  have hany : (!a.records.isEmpty) = !ds.isEmpty := by
    have hpos := width_pos hcap (Nat.le_refl 1)
    have hlength := length_sorted (q.select .find) ds
    have hempty : a.records.length = 0 ↔ ds.length = 0 := by
      rw [hrecords, List.length_take, hlength]
      omega
    rw [Bool.eq_iff_iff, Bool.not_eq_true', Bool.not_eq_true', List.isEmpty_eq_false_iff,
      List.isEmpty_eq_false_iff, ne_eq, ne_eq, ← List.length_eq_zero_iff, hempty,
      List.length_eq_zero_iff]
  rw [exists?, ← hany]
  exact .bind (.checked hcheck) (.bind (.metadata hm) (.bind (.compiled hst)
    (.bind (.attempt ha) (.given _))))

/-- Where there is no such collection there is nothing in it; any other fault is the outcome of
asking. -/
theorem exists_fault (hname : Text.isBlank name = false)
    (hm : Metadata.ofDeclaration e.toEntityDeclaration = .ok m)
    (hst : Statement.ofQuery .find q = .ok statement)
    (hf : found s name q.criteria (fansOut m q) = .error f) :
    ((ofStore settings database metrics).exists? e name q).Settles s
      (AccessError.recover .exists false (.error (.translate .exists f.error))) := by
  have hcheck : requireText "collection name" name = .ok () := requireText_ok_iff.mpr hname
  rw [exists?]
  exact .bind (.checked hcheck) (.bind (.metadata hm) (.bind (.compiled hst)
    (.bind (.attempt (query_settles_fault .exists hst hf)) (.given _))))

/-! ## Finding -/

/-- What finding can come to: an argument is refused, or what was found is mapped, or it may not
be had. -/
theorem find_cases (hcap : ∀ n, settings.maxItems = some n → 1 ≤ n) (hmemory : s.FitsMemory)
    (hst : Statement.ofQuery .find q = .ok statement) :
    (∃ f, ((ofStore settings database metrics).find e name q).Settles s
      (.error (.invalidArgument f)))
    ∨ ∃ m, Text.isBlank name = false ∧ Metadata.ofDeclaration e.toEntityDeclaration = .ok m
      ∧ ((∃ ds, found s name q.criteria (fansOut m q) = .ok ds
          ∧ ((ofStore settings database metrics).find e name q).Settles s
            (((sorted (q.select .find) ds).mapM e.read).mapError .mapping))
        ∨ ∃ f, found s name q.criteria (fansOut m q) = .error f
          ∧ ((ofStore settings database metrics).find e name q).Settles s
            (AccessError.recover .find [] (.error (.translate .find f.error)))) := by
  cases hname : Text.isBlank name with
  | true =>
    have hcheck : requireText "collection name" name = .error (.blank "collection name") := by
      rw [requireText, if_pos hname]
    refine .inl ⟨.blank "collection name", ?_⟩
    rw [find, hcheck]
    exact .bind_error (.checking _)
  | false =>
    have hcheck : requireText "collection name" name = .ok () := requireText_ok_iff.mpr hname
    cases hm : Metadata.ofDeclaration e.toEntityDeclaration with
    | error f =>
      have hdeclaring : (metadata e.toEntityDeclaration : Access Store Metadata).Settles s _ :=
        .declaring e.toEntityDeclaration
      rw [hm] at hdeclaring
      refine .inl ⟨f, ?_⟩
      rw [find]
      exact .bind (.checked hcheck) (.bind_error hdeclaring)
    | ok m =>
      refine .inr ⟨m, rfl, rfl, ?_⟩
      cases hf : found s name q.criteria (fansOut m q) with
      | ok ds =>
        exact .inl ⟨ds, rfl,
          find_settles hname hm hst hcap (Store.length_le_of_found hmemory hf) hf⟩
      | error f => exact .inr ⟨f, rfl, find_fault hname hm hst hf⟩

/-! ## The three together -/

/-- **Finding, counting and asking agree.**  In a collection that exists: if finding delivers a
list, counting delivers its length and asking whether it is empty; and if the store refuses to
find, it refuses the others for the same cause. -/
theorem find_count_exists_agree {session session' : Session Store} {c : Collection}
    {outcome : Except AccessError (List α)}
    (hc : session.backend.collection? name = some c) (hmemory : session.backend.FitsMemory)
    (hcap : ∀ n, settings.maxItems = some n → 1 ≤ n)
    (hst : Statement.ofQuery .find q = .ok statement)
    (hrun : ((ofStore settings database metrics).find e name q).run session
      = (outcome, session')) :
    session'.backend = session.backend
    ∧ (∀ list, outcome = .ok list →
      ((ofStore settings database metrics).count e name q).Settles session.backend
        (.ok list.length)
      ∧ ((ofStore settings database metrics).exists? e name q).Settles session.backend
        (.ok !list.isEmpty))
    ∧ ∀ err op cause, outcome = .error err → err.refused? = some (op, cause) →
      ((ofStore settings database metrics).count e name q).Settles session.backend
        (.error (.translate .count cause))
      ∧ ((ofStore settings database metrics).exists? e name q).Settles session.backend
        (.error (.translate .exists cause)) := by
  obtain ⟨counting, hcounting⟩ := ofQuery_count hst
  -- one outcome is known, and it is that of this run
  have hthis : ∀ r, ((ofStore settings database metrics).find e name q).Settles session.backend r →
      outcome = r ∧ session'.backend = session.backend := by
    intro r hsettles
    obtain ⟨s₁, hrun₁, hs₁⟩ := hsettles session rfl
    obtain ⟨rfl, rfl⟩ := Prod.mk.inj (hrun.symm.trans hrun₁)
    exact ⟨rfl, hs₁⟩
  rcases find_cases hcap hmemory hst with
    ⟨f, hsettles⟩ | ⟨m, hname, hm, ⟨ds, hf, hsettles⟩ | ⟨f, hf, hsettles⟩⟩
  · -- an argument was refused, which is no fault of the store
    obtain ⟨rfl, hbackend⟩ := hthis _ hsettles
    refine ⟨hbackend, nofun, ?_⟩
    rintro _ _ _ ⟨⟩ hrefused
    cases hrefused
  · obtain ⟨rfl, hbackend⟩ := hthis _ hsettles
    have hsize := Store.length_le_of_found hmemory hf
    refine ⟨hbackend, ?_, ?_⟩
    · intro list hlist
      -- mapping and sorting keep the length, so the list is as long as what was found
      have hlength : list.length = ds.length := by
        rw [length_of_mapM (ok_of_mapError hlist), length_sorted]
      have hempty : list.isEmpty = ds.isEmpty := by
        rw [Bool.eq_iff_iff, List.isEmpty_iff_length_eq_zero, List.isEmpty_iff_length_eq_zero,
          hlength]
      rw [hlength, hempty]
      exact ⟨count_settles hname hm hcounting hsize hf, exists_settles hcap hname hm hst hf⟩
    · intro err op cause herr hrefused
      cases hmap : (sorted (q.select .find) ds).mapM e.read with
      | ok list =>
        rw [hmap] at herr
        cases herr
      | error g =>
        rw [hmap] at herr
        cases herr
        cases hrefused
  · obtain ⟨rfl, hbackend⟩ := hthis _ hsettles
    -- in a collection that exists there is one fault that finding may have
    obtain rfl := Store.manyPartitions_of_found hc hf
    refine ⟨hbackend, nofun, ?_⟩
    rintro _ _ _ ⟨⟩ hrefused
    cases hrefused
    exact ⟨count_fault hname hm hcounting hf, exists_fault hname hm hst hf⟩

/-- Parcels by zone; a zone is a document, and its fields come in either order. -/
def parcels : Collection where
  properties := ⟨"parcels", some "zone", 400⟩
  records :=
    [[("id", .text "p1"), ("zone", .doc [("x", .int32 1), ("y", .int32 2)])],
      [("id", .text "p2"), ("zone", .doc [("y", .int32 2), ("x", .int32 1)])]]

/-- The parcels of one zone. -/
def oneZone : Query where
  criteria := .compare .eq "zone" (.doc [("x", .int32 1), ("y", .int32 2)])

/-- Two parcels fit in memory. -/
theorem fitsMemory_parcels : (Store.put {} "parcels" parcels).FitsMemory := by
  intro entry hentry
  rw [List.mem_singleton.mp hentry]
  decide

/-- Three adults are found one by one, counted at once, and the first of them shows that there are
some.  The parcels of a zone are refused three times, as their zones do not read alike. -/
theorem find_count_exists_agree_people_parcels :
    ((ofStore oneByOne "db" false).count (.records { name := "Record" }) "people"
        adults).Settles (Store.put {} "people" people) (.ok 3)
    ∧ ((ofStore oneByOne "db" false).exists? (.records { name := "Record" }) "people"
        adults).Settles (Store.put {} "people" people) (.ok true)
    ∧ ((ofStore oneByOne "db" false).count
        (.records { name := "Parcel", partitionFields := ["zone"] }) "parcels" oneZone).Settles
        (Store.put {} "parcels" parcels)
        (.error (.backendExecution .count Store.Fault.manyPartitions.error))
    ∧ ((ofStore oneByOne "db" false).exists?
        (.records { name := "Parcel", partitionFields := ["zone"] }) "parcels" oneZone).Settles
        (Store.put {} "parcels" parcels)
        (.error (.backendExecution .exists Store.Fault.manyPartitions.error)) := by
  obtain ⟨st, hst⟩ : ∃ st, Statement.ofQuery .find adults = .ok st := ⟨_, rfl⟩
  obtain ⟨st', hst'⟩ : ∃ st, Statement.ofQuery .find oneZone = .ok st := ⟨_, rfl⟩
  have hf : found (Store.put {} "people" people) "people" adults.criteria true
      = .ok (people.records.filter adults.criteria.meets) := rfl
  have hf' : found (Store.put {} "parcels" parcels) "parcels" oneZone.criteria false
      = .error .manyPartitions := rfl
  have hsize := Store.length_le_of_found fitsMemory_people hf
  have hfind : ((ofStore oneByOne "db" false).find (.records { name := "Record" }) "people"
      adults).Settles (Store.put {} "people" people) _ :=
    find_settles rfl rfl hst oneByOne_allows hsize hf
  have hfind' : ((ofStore oneByOne "db" false).find
      (.records { name := "Parcel", partitionFields := ["zone"] }) "parcels" oneZone).Settles
        (Store.put {} "parcels" parcels) _ :=
    find_fault rfl rfl hst' hf'
  obtain ⟨_, hrun, -⟩ := hfind { backend := Store.put {} "people" people } rfl
  obtain ⟨_, hrun', -⟩ := hfind' { backend := Store.put {} "parcels" parcels } rfl
  obtain ⟨-, hlist, -⟩ :=
    find_count_exists_agree rfl fitsMemory_people oneByOne_allows hst hrun
  obtain ⟨-, -, hrefused⟩ :=
    find_count_exists_agree rfl fitsMemory_parcels oneByOne_allows hst' hrun'
  obtain ⟨hcount, hexists⟩ := hlist _ rfl
  obtain ⟨hcount', hexists'⟩ := hrefused _ _ _ rfl rfl
  exact ⟨hcount, hexists, hcount', hexists'⟩

end DocQuery.Client
