/-
  Reading a record from its partition, and looking for it in all of them.

  There are two ways to an entity by its id.  With the key of a partition the store goes through its
  records to the first of that id and partition; without it, it answers a query for the id.  In
  several partitions there may be records of one id.  The query then finds the first of them all,
  and so does whoever names its partition.

  1. `Collection.first?`: the first record of an id, and what reading from a partition makes of it;
  2. `Criteria.meets_id`, `sorted_matches_id`: what meets the query for an id, in which order;
  3. `readAt_yields`: reading from a partition, and `findById_settles_first`,
     `findById_settles_at`: the two ways, in terms of the records;
  4. `point_reads_agree`: the two together.
-/
import DocQuery.Proofs.Observing

namespace DocQuery

/-! ## Places -/

namespace Collection

variable {c : Collection} {id : String} {key : PartitionKey} {d : Document}

/-- The first record of an id, wherever it lies. -/
def first? (c : Collection) (id : String) : Option Document :=
  c.records.find? fun d => d.id? == some id

/-- Where no record has the id none has it in a partition. -/
theorem find?_of_first?_none (h : c.first? id = none) : c.find? id key = none := by
  refine List.find?_eq_none.mpr fun d hd hat => ?_
  rw [isAt, Bool.and_eq_true] at hat
  exact List.find?_eq_none.mp h d hd hat.1

/-- The first record of an id is the first in its partition. -/
theorem find?_of_first? (h : c.first? id = some d) (hkey : (c.partitionOf d).same key = true) :
    c.find? id key = some d := by
  obtain ⟨hid, before, behind, hrecords, hbefore⟩ := List.find?_eq_some_iff_append.mp h
  refine List.find?_eq_some_iff_append.mpr ⟨?_, before, behind, hrecords, fun e he => ?_⟩
  · rw [isAt, hid, hkey, Bool.or_true, Bool.and_true]
  · have hother : (e.id? == some id) = false := (Bool.not_eq_true' _).mp (hbefore e he)
    rw [isAt, hother]
    rfl

/-- Without partitions the key says nothing. -/
theorem find?_eq_first? (h : c.properties.partitionPath = none) (id : String)
    (key : PartitionKey) : c.find? id key = c.first? id := by
  have hat : c.isAt id key = fun d => d.id? == some id := by
    funext d
    rw [isAt, isPartitioned, h]
    exact Bool.and_true _
  rw [find?, first?, hat]

end Collection

/-! ## The query for an id -/

/-- A record meets the criteria of an id as it has the id. -/
theorem Criteria.meets_id (id : String) (d : Document) :
    (Criteria.compare .eq idField (.text id)).meets d = (d.id? == some id) := by
  have hfield : d.field? idField = d.get? idField := rfl
  have htruth : (Criteria.compare .eq idField (.text id)).truth d
      = (d.get? idField).map fun v => v.equals (.text id) := by
    rw [truth, hfield]
    cases d.get? idField <;> rfl
  rw [meets, htruth, Bool.eq_iff_iff, beq_iff_eq, beq_iff_eq, Document.id?, Document.getText?]
  cases d.get? idField with
  | none => constructor <;> (intro h; cases h)
  | some v =>
    rw [Option.map_some, Option.some_inj, Value.equals_text]
    constructor
    · rintro rfl
      rfl
    · intro h
      split at h
      · rename_i t hv
        rw [Option.some.inj hv, Option.some.inj h]
      · cases h

namespace Client

open Store (Settings found sorted)

variable {settings : Settings} {database : String} {metrics : Bool} {s : Store} {α : Type}
  {e : EntityType α} {m : Metadata} {id : String}

/-- What is found by an id, in order of insertion. -/
theorem sorted_matches_id (c : Collection) (id : String) :
    sorted (Query.select { criteria := .compare .eq idField (.text id) } .find)
      (c.records.filter (Criteria.compare .eq idField (.text id)).meets)
      = c.records.filter fun d => d.id? == some id := by
  have hmeets : (Criteria.compare .eq idField (.text id)).meets = fun d => d.id? == some id :=
    funext (Criteria.meets_id id)
  rw [hmeets]
  rfl

/-- A record that was looked for, as an entity. -/
def entityOf (e : EntityType α) : Option Document → Except AccessError (Option α)
  | none => .ok none
  | some d => ((e.read d).mapError .mapping).map some

/-- An entity that is delivered was read from a record. -/
theorem entityOf_some {d? : Option Document} {a : α} (h : entityOf e d? = .ok (some a)) :
    ∃ d, d? = some d ∧ e.read d = .ok a := by
  cases d? with
  | none => cases h
  | some d =>
    obtain ⟨b, hb, hba⟩ := ok_of_map h
    obtain rfl := Option.some.inj hba
    exact ⟨d, rfl, ok_of_mapError hb⟩

theorem entityOf_none {d? : Option Document} (h : entityOf e d? = .ok none) : d? = none := by
  cases d? with
  | none => rfl
  | some d =>
    obtain ⟨b, -, hb⟩ := ok_of_map h
    cases hb

/-- The last step of both ways. -/
theorem entity_silent {σ : Type} (d? : Option Document) : (match d? with
      | none => pure none
      | some d => do
        let a ← Access.mapped (e.read d)
        pure (some a) : Access σ (Option α)).Silent (entityOf e d?) := by
  cases d? with
  | none => exact .pure none
  | some d => exact (Access.Silent.mapped (e.read d)).map some

/-- The query for an id finds the first record that has it. -/
theorem findByIdIn_settles {name : String} {c : Collection}
    (hcap : ∀ n, settings.maxItems = some n → 1 ≤ n) (hmemory : s.FitsMemory)
    (hname : Text.isBlank name = false) (hid : Text.isBlank id = false)
    (hc : s.collection? name = some c) :
    ((ofStore settings database metrics).findByIdIn e name id).Settles s
      (entityOf e (c.first? id)) := by
  obtain ⟨statement, hst⟩ := written_id id
  have hf : found s name (.compare .eq idField (.text id)) true = .ok _ := found_all hc
  have hall : ((ofStore settings database metrics).queryAll .findById name statement true).Settles s
      _ := queryAll_settles hcap (Store.length_le_of_found hmemory hf) hst hf
  rw [sorted_matches_id] at hall
  have hfirst : c.first? id = (c.records.filter fun d => d.id? == some id).head? :=
    List.head?_filter.symm
  rw [findByIdIn, hfirst]
  refine .bind (.checked (requireText_ok_iff.mpr hname)) (.bind
    (.checked (requireText_ok_iff.mpr hid)) (.bind (.compiled hst) (.bind hall ?_)))
  cases c.records.filter fun d => d.id? == some id with
  | nil => exact (entity_silent none).settles s
  | cons d ds => exact (entity_silent (some d)).settles s

/-! ## From a partition, and from anywhere -/

/-- **A reading from a partition comes to the first record in it**, and to one report. -/
theorem readAt_yields (e : EntityType α) (name id : String) (key : PartitionKey) : (do
      let answer ← Access.attempt ((ofStore settings database metrics).call .findById name
        RecordAnswer.observed ((ofStore settings database metrics).backend.read name id key))
      let record ← ExceptT.mk
        (pure (AccessError.recover .findById none (answer.map RecordAnswer.record)))
      match record with
      | none => pure none
      | some d => do
        let a ← Access.mapped (e.read d)
        pure (some a) : Access Store (Option α)).Yields s
      (entityOf e ((s.collection? name).bind (·.find? id key)))
      [(ofStore settings database metrics).report .findById name RecordAnswer.observed
        (Store.reported (Store.read name id key s))] s := by
  have hcall : ((ofStore settings database metrics).call .findById name RecordAnswer.observed
      ((ofStore settings database metrics).backend.read name id key)).Yields s _ [_] s :=
    .call (ofStore settings database metrics) .findById name RecordAnswer.observed
      ((ofStore settings database metrics).backend.read name id key) s
  refine .behind hcall.attempt ?_
  show Access.Silent (ExceptT.mk (pure (AccessError.recover .findById none
    (((Store.reported (Store.read name id key s)).mapError (.translate .findById)).map
      RecordAnswer.record))) >>= _) _
  -- neither a missing collection nor a missing record is an error
  rw [Store.read]
  cases s.collection? name with
  | none => exact .bind (.given (.ok none)) (entity_silent none)
  | some c =>
    dsimp only [Option.bind_some]
    cases c.find? id key with
    | none => exact .bind (.given (.ok none)) (entity_silent none)
    | some d => exact .bind (.given (.ok (some d))) (entity_silent (some d))

section Declared

variable (hm : Metadata.ofDeclaration e.toEntityDeclaration = .ok m)
  (hid : Text.isBlank id = false)

include hm hid

/-- **Without a key it is the first record of all.** -/
theorem findById_settles_first (hcap : ∀ n, settings.maxItems = some n → 1 ≤ n)
    (hmemory : s.FitsMemory) : ((ofStore settings database metrics).findById e id none).Settles s
      (entityOf e ((s.collection? m.collection).bind (·.first? id))) := by
  refine .bind (.checked (requireText_ok_iff.mpr hid)) (.bind (.bind (.metadata hm) (.pure _)) ?_)
  have hname := Metadata.isBlank_collection hm
  cases hc : s.collection? m.collection with
  | some c => exact findByIdIn_settles hcap hmemory hname hid hc
  | none =>
    refine findByIdIn_vacant hcap (fun c hc' => ?_) hname hid
    rw [hc] at hc'
    cases hc'

/-- **With a key it is the first record in that partition.** -/
theorem findById_settles_at (key : PartitionKey) :
    ((ofStore settings database metrics).findById e id (some key)).Settles s
      (entityOf e ((s.collection? m.collection).bind (·.find? id key))) :=
  .bind (.checked (requireText_ok_iff.mpr hid))
    (.bind (.bind (.metadata hm) (.pure m.collection)) (readAt_yields e m.collection id key).leads)

end Declared

variable (settings database metrics s) in
/-- Whether a key is given does not matter to an id that is blank, nor to a type that is none. -/
theorem findById_refused_or (e : EntityType α) (id : String) :
    (∃ err, ∀ key?, ((ofStore settings database metrics).findById e id key?).Settles s (.error err))
      ∨ (Text.isBlank id = false
        ∧ ∃ m, Metadata.ofDeclaration e.toEntityDeclaration = .ok m) := by
  cases hid : requireText "id" id with
  | error f =>
    have hchecked : (Access.checked (requireText "id" id) : Access Store Unit).Settles s _ :=
      .checking _
    rw [hid] at hchecked
    exact .inl ⟨.invalidArgument f, fun key? => by rw [findById, hid]; exact .bind_error hchecked⟩
  | ok u =>
    cases hm : Metadata.ofDeclaration e.toEntityDeclaration with
    | ok m => exact .inr ⟨requireText_ok_iff.mp hid, m, rfl⟩
    | error f =>
      have hdeclared : (metadata e.toEntityDeclaration : Access Store Metadata).Settles s _ :=
        .declaring _
      rw [hm] at hdeclared
      exact .inl ⟨.invalidArgument f, fun key? =>
        .bind (.checked hid) (.bind_error (.bind_error hdeclared))⟩

/-! ## Both ways -/

variable (settings database metrics) in
/-- **Both ways lead to one entity.**  Whatever the reading of an id without a key comes to: if to
an entity, then to that of the first record of the id, and so does the reading from its partition;
if to none, then there is none in any partition; and without partitions there is no difference. -/
theorem point_reads_agree (e : EntityType α) (id : String)
    (hcap : ∀ n, settings.maxItems = some n → 1 ≤ n) (hmemory : s.FitsMemory) :
    ∃ r, ((ofStore settings database metrics).findById e id none).Settles s r
      ∧ (∀ a, r = .ok (some a) → ∃ m c d, Metadata.ofDeclaration e.toEntityDeclaration = .ok m
        ∧ s.collection? m.collection = some c ∧ c.first? id = some d ∧ e.read d = .ok a
        ∧ ∀ key, (c.partitionOf d).same key = true →
          ((ofStore settings database metrics).findById e id (some key)).Settles s (.ok (some a)))
      ∧ (r = .ok none → ∀ key,
        ((ofStore settings database metrics).findById e id (some key)).Settles s (.ok none))
      ∧ ((∀ m c, Metadata.ofDeclaration e.toEntityDeclaration = .ok m →
          s.collection? m.collection = some c → c.properties.partitionPath = none) →
        ∀ key, ((ofStore settings database metrics).findById e id (some key)).Settles s r) := by
  rcases findById_refused_or settings database metrics s e id with ⟨err, hrefused⟩ | ⟨hid, m, hm⟩
  · exact ⟨.error err, hrefused none, nofun, nofun, fun _ key => hrefused (some key)⟩
  have hat : ∀ key, ((ofStore settings database metrics).findById e id (some key)).Settles s _ :=
    findById_settles_at hm hid
  refine ⟨_, findById_settles_first hm hid hcap hmemory, fun a ha => ?_, fun hnone key => ?_,
    fun hwhole key => ?_⟩
  · -- an entity is that of a record
    obtain ⟨d, hd, hread⟩ := entityOf_some ha
    obtain ⟨c, hc, hfirst⟩ := Option.bind_eq_some_iff.mp hd
    refine ⟨m, c, d, hm, hc, hfirst, hread, fun key hkey => ?_⟩
    have hthere := hat key
    rw [hc, Option.bind_some, Collection.find?_of_first? hfirst hkey, entityOf, hread] at hthere
    exact hthere
  · -- what is nowhere is in no partition
    have hnowhere := Option.bind_eq_none_iff.mp (entityOf_none hnone)
    have hgone : (s.collection? m.collection).bind (·.find? id key) = none :=
      Option.bind_eq_none_iff.mpr fun c hc => Collection.find?_of_first?_none (hnowhere c hc)
    have hthere := hat key
    rw [hgone] at hthere
    exact hthere
  · -- outside partitions the first record of the id is the first anywhere
    have hsame : (s.collection? m.collection).bind (·.find? id key)
        = (s.collection? m.collection).bind (·.first? id) :=
      Option.bind_congr fun c hc => Collection.find?_eq_first? (hwhole m c hm hc) id key
    rw [← hsame]
    exact hat key

/-- The first delivery of two of one number goes to Oslo.  It is the one that is found, and the one
in its partition, while a number of no delivery is in none.  People are found anywhere, or nowhere
at all. -/
theorem point_reads_agree_deliveries :
    (∃ d, deliveries.records[0]? = some d
      ∧ ((ofStore oneByOne "db" false).findById delivery "d1" none).Settles
        (Store.after oneByOne dispatch {}) (.ok (some d))
      ∧ ((ofStore oneByOne "db" false).findById delivery "d1"
        (some (.value (.text "Oslo")))).Settles (Store.after oneByOne dispatch {}) (.ok (some d)))
    ∧ (∀ key, ((ofStore oneByOne "db" false).findById delivery "d4" (some key)).Settles
      (Store.after oneByOne dispatch {}) (.ok none))
    ∧ ∀ key, ((ofStore oneByOne "db" false).findById
        (.records { name := "Person", collection := "people" }) "b" (some key)).Settles
      (Store.put {} "people" people) (.ok (some [("id", .text "b")])) := by
  refine ⟨?_, fun key => ?_, fun key => ?_⟩
  · obtain ⟨r, hr, hsome, -, -⟩ := point_reads_agree oneByOne "db" false delivery "d1"
      oneByOne_allows fitsMemory_deliveries
    obtain rfl := hr.unique (findById_settles_first rfl rfl oneByOne_allows fitsMemory_deliveries)
    obtain ⟨m, c, d, hm, hc, hfirst, hread, hthere⟩ := hsome _ rfl
    cases hm
    cases hc
    cases hfirst
    exact ⟨_, rfl, hr, hthere _ rfl⟩
  · obtain ⟨r, hr, -, hnone, -⟩ := point_reads_agree oneByOne "db" false delivery "d4"
      oneByOne_allows fitsMemory_deliveries
    obtain rfl := hr.unique (findById_settles_first rfl rfl oneByOne_allows fitsMemory_deliveries)
    exact hnone rfl key
  · obtain ⟨r, hr, -, -, hwhole⟩ := point_reads_agree oneByOne "db" false
      (.records { name := "Person", collection := "people" }) "b" oneByOne_allows fitsMemory_people
    obtain rfl := hr.unique (findById_settles_first rfl rfl oneByOne_allows fitsMemory_people)
    refine hwhole (fun m c hm hc => ?_) key
    cases hm
    cases hc
    rfl

end Client

end DocQuery
