/-
  Reading what was written.

  A write looks for the place of its record by one scan of the collection, and a read scans again,
  now with the record in it.  What the scans compare keys by is not reflexive: NaN equals nothing,
  and a key with a NaN inside names a partition that no record is found in.  But a write is refused
  unless the record's own key equals the one given, and a key that equals any other equals itself.

  1. `Fields.insert_eq_map`, `Stamper.stamp_eq`: what a stamp does to a record, field by field;
  2. `Document.wellFormed_atPath`: keys of partitions hold every key once, as records do;
  3. `Collection.Written`: a collection before and after a write, and what is found in it;
  4. `Store.read_written`: the record that was written, other ids, and other collections.
-/
import DocQuery.Proofs.Effects
import DocQuery.Proofs.Uniqueness

namespace DocQuery

/-! ## Fields that are held once -/

namespace Fields

variable {α : Type} {fs : Fields α} {key other : String}

/-- A field once a key has a new value. -/
def renew (key : String) (v : α) (f : String × α) : String × α :=
  if f.1 = key then (key, v) else f

/-- The field that has to be appended for a key to have a value. -/
def lacking (fs : Fields α) (key : String) (v : α) : Fields α :=
  if key ∈ fs.map Prod.fst then [] else [(key, v)]

/-- Where keys are held once, inserting renews the field of the key, or appends it. -/
theorem insert_eq_map (h : (fs.map Prod.fst).Nodup) (key : String) (v : α) :
    fs.insert key v = fs.map (renew key v) ++ fs.lacking key v := by
  induction fs with
  | nil => rfl
  | cons f rest ih =>
    obtain ⟨k, w⟩ := f
    obtain ⟨hk, hrest⟩ := List.nodup_cons.mp h
    by_cases hkey : k = key
    · subst hkey
      -- no other field has the key
      have hothers : rest.map (renew k v) = rest := by
        refine (List.map_congr_left fun f hf => if_neg ?_).trans (List.map_id' rest)
        exact fun hf' => hk (List.mem_map.mpr ⟨f, hf, hf'⟩)
      rw [insert, if_pos rfl, List.map_cons, hothers, renew, if_pos rfl, lacking, List.map_cons,
        if_pos List.mem_cons_self, List.append_nil]
    · have hmem : key ∈ ((k, w) :: rest).map Prod.fst ↔ key ∈ rest.map Prod.fst := by
        rw [List.map_cons, List.mem_cons]
        exact or_iff_right (Ne.symm hkey)
      rw [insert, if_neg hkey, ih hrest, List.map_cons, renew, if_neg hkey, List.cons_append,
        lacking, lacking]
      simp only [hmem]

/-- Exchanging a value changes no keys. -/
theorem keys_renew (fs : Fields α) (key : String) (v : α) :
    (fs.map (renew key v)).map Prod.fst = fs.map Prod.fst := by
  rw [List.map_map]
  refine List.map_congr_left fun f _ => ?_
  rw [Function.comp_apply, renew]
  split
  · rename_i hf
    exact hf.symm
  · rfl

/-- The keys stay where they are. -/
theorem keys_insert (h : (fs.map Prod.fst).Nodup) (key : String) (v : α) :
    (fs.insert key v).map Prod.fst
      = fs.map Prod.fst ++ if key ∈ fs.map Prod.fst then [] else [key] := by
  rw [insert_eq_map h, List.map_append, keys_renew, lacking]
  split <;> rfl

/-- A field that is put in is held once, like the others. -/
theorem nodup_insert (h : (fs.map Prod.fst).Nodup) (key : String) (v : α) :
    ((fs.insert key v).map Prod.fst).Nodup := by
  rw [keys_insert h]
  split
  · rw [List.append_nil]
    exact h
  · rename_i hkey
    refine List.nodup_append.mpr ⟨h, List.pairwise_singleton _ _, ?_⟩
    rintro a ha b hb rfl
    exact hkey (List.mem_singleton.mp hb ▸ ha)

/-- What another key lacks is not there for it. -/
theorem lacking_insert (h : (fs.map Prod.fst).Nodup) (hne : other ≠ key) (v w : α) :
    (fs.insert key v).lacking other w = fs.lacking other w := by
  have hmem : other ∈ (fs.insert key v).map Prod.fst ↔ other ∈ fs.map Prod.fst := by
    rw [keys_insert h, List.mem_append]
    refine or_iff_left ?_
    split
    · exact List.not_mem_nil
    · exact fun hmem => hne (List.mem_singleton.mp hmem)
  rw [lacking, lacking]
  simp only [hmem]

/-- What stands apart from a key is left alone when another is exchanged. -/
theorem map_renew_lacking (hne : other ≠ key) (v w : α) :
    (fs.lacking key v).map (renew other w) = fs.lacking key v := by
  rw [lacking]
  split
  · rfl
  · rw [List.map_singleton, renew, if_neg hne.symm]

end Fields

/-! ## Stamps -/

namespace Stamper

variable (stamper : Stamper) (n : Nat)

/-- A field as a stamp leaves it: what the write marks is new, anything else is as it was. -/
def mark (f : String × Value) : String × Value :=
  if f.1 = versionField then (versionField, .text (stamper.token n))
  else if f.1 = timestampField then (timestampField, .int64 (stamper.time n))
  else f

/-- The marks for which a record has no field, in the order in which they are appended. -/
def appended (d : Document) : Document :=
  (if versionField ∈ d.map Prod.fst then [] else [(versionField, .text (stamper.token n))])
    ++ if timestampField ∈ d.map Prod.fst then []
      else [(timestampField, .int64 (stamper.time n))]

/-- **A stamp marks fields where they stand**, and appends those that there are none of. -/
theorem stamp_eq {d : Document} (h : (d.map Prod.fst).Nodup) :
    stamper.stamp n d = d.map (stamper.mark n) ++ stamper.appended n d := by
  have hne : timestampField ≠ versionField := by decide
  have hmarks : (d.map (Fields.renew versionField (.text (stamper.token n)))).map
      (Fields.renew timestampField (.int64 (stamper.time n))) = d.map (stamper.mark n) := by
    rw [List.map_map]
    refine List.map_congr_left fun f _ => ?_
    rw [Function.comp_apply, Fields.renew, Fields.renew, mark]
    by_cases hversion : f.1 = versionField
    · rw [if_pos hversion, if_pos hversion, if_neg hne.symm]
    · rw [if_neg hversion, if_neg hversion]
  rw [stamp, Fields.insert_eq_map (Fields.nodup_insert h _ _), Fields.lacking_insert h hne,
    Fields.insert_eq_map h, List.map_append, hmarks, Fields.map_renew_lacking hne,
    List.append_assoc]
  rfl

end Stamper

/-! ## Keys of partitions -/

/-- What is within a record holds every key once, if the record does. -/
theorem Document.wellFormed_walk {path : List String} {d : Document} {v : Value}
    (hd : WellFormedFields d) (h : d.walk path = some v) : v.WellFormed := by
  induction path generalizing d with
  | nil => cases h
  | cons key rest ih =>
    cases rest with
    | nil => exact wellFormed_of_mem hd (Fields.mem_of_get? h)
    | cons next rest =>
      rw [walk] at h
      · split at h
        · rename_i inner hinner
          have hdoc : (Value.doc inner).WellFormed :=
            wellFormed_of_mem hd (Fields.mem_of_get? hinner)
          exact ih hdoc.2 h
        · cases h
      · exact List.cons_ne_nil next rest

namespace Collection

variable {c c' : Collection} {id other : String} {key : PartitionKey} {d stored : Document}
  {stamp : Document → Document} {replacing : Bool} {target : Placement}

/-- The key of a record that holds every key once does so, too. -/
theorem wellFormed_partitionOf (hd : WellFormedFields d) : (c.partitionOf d).WellFormed := by
  rw [partitionOf]
  split
  · rename_i path _
    cases hv : d.atPath (partitionSegments path) with
    | none => trivial
    | some v =>
      have hwalk : d.walk (partitionSegments path) = some v := by
        rw [Document.atPath] at hv
        split at hv
        · exact hv
        · cases hv
      have hwell := Document.wellFormed_walk hd hwalk
      cases v <;> exact hwell
  · trivial

/-- A write is refused unless the record's own key equals the one given. -/
theorem checkPartition_of_write (h : c.write stamp replacing target d = .ok (stored, c')) :
    c.checkPartition (c.partitionOf d) target.partitionKey = .ok () := by
  rw [write] at h
  obtain ⟨_, -, h⟩ := ok_of_bind h
  obtain ⟨⟨⟩, hpartition, -⟩ := ok_of_bind h
  exact hpartition

/-- **A record that was written is where it belongs**: its key equals itself. -/
theorem isAt_own_of_write (hsteady : c.Steady) (hd : WellFormedFields d)
    {stamper : Stamper} {n : Nat} (hid : d.requireId = .ok id)
    (h : c.checkPartition (c.partitionOf d) target.partitionKey = .ok ()) :
    c.isAt id (c.partitionOf d) (stamper.stamp n d) = true := by
  rw [isAt, id?_stamp, (requireId_ok_iff.mp hid).1, hsteady, beq_self_eq_true, Bool.true_and]
  cases hpartitioned : c.isPartitioned with
  | false => rfl
  | true =>
    rw [checkPartition, hpartitioned] at h
    cases hsame : (c.partitionOf d).same target.partitionKey with
    | false =>
      rw [hsame] at h
      cases h
    | true => exact PartitionKey.same_self (wellFormed_partitionOf hd) hsame

/-! ## A collection before and after -/

/-- A collection before a record was written, and after.  In front of the record nothing is where
it goes, and it takes the place of some records of its id: of one or none. -/
structure Written (c c' : Collection) (id : String) (key : PartitionKey) (stored : Document) :
    Prop where
  properties : c'.properties = c.properties
  parts : ∃ before gone behind, c.records = before ++ (gone ++ behind)
    ∧ c'.records = before ++ stored :: behind ∧ (∀ e ∈ before, c.isAt id key e = false)
    ∧ ∀ e ∈ gone, e.id? = some id

/-- A write that succeeds makes such a collection, with its record at its own id and partition. -/
theorem written_of_write (h : c.write stamp replacing target d = .ok (stored, c')) :
    ∃ id, d.requireId = .ok id ∧ Written c c' id (c.partitionOf d) stored := by
  obtain ⟨rfl, id, hid, -, ⟨hnone, rfl⟩ | ⟨place, hplace, -, rfl⟩⟩ := write_ok h
  · refine ⟨id, hid, rfl, c.records, [], [], ?_, rfl, position?_eq_none_iff.mp hnone, nofun⟩
    rw [List.append_nil, List.append_nil]
  · obtain ⟨before, old, behind, hrecords, rfl, hold, hbefore⟩ := parts_of_position? hplace
    refine ⟨id, hid, rfl, before, [old], behind, hrecords, records_replace hrecords _, hbefore, ?_⟩
    exact List.forall_mem_singleton.mpr (isAt_iff.mp hold).1

namespace Written

variable (h : Written c c' id key stored)
include h

/-- Where a record is found hangs on the collection's path alone, and a write does not change that.
-/
theorem isAt_eq : c'.isAt = c.isAt := by
  funext id key d
  rw [isAt, isAt, isPartitioned, isPartitioned, partitionOf, partitionOf, h.properties]

/-- The record is found where it was written. -/
theorem find?_own (hat : c.isAt id key stored = true) : c'.find? id key = some stored := by
  obtain ⟨before, gone, behind, -, hrecords, hbefore, -⟩ := h.parts
  have hnone : before.find? (c.isAt id key) = none :=
    List.find?_eq_none.mpr fun e he => Bool.eq_false_iff.mp (hbefore e he)
  rw [find?, h.isAt_eq, hrecords, List.find?_append, hnone, Option.none_or,
    List.find?_cons_of_pos hat]

/-- For another id the same is found as before. -/
theorem find?_other (hid : stored.id? = some id) (hne : other ≠ id) (key' : PartitionKey) :
    c'.find? other key' = c.find? other key' := by
  obtain ⟨before, gone, behind, hbefore, hafter, -, hgone⟩ := h.parts
  have hnot : ∀ e : Document, e.id? = some id → ¬ c.isAt other key' e = true := by
    intro e he hat
    rw [isAt, he, Bool.and_eq_true, beq_iff_eq] at hat
    exact hne (Option.some.inj hat.1).symm
  have hnone : gone.find? (c.isAt other key') = none :=
    List.find?_eq_none.mpr fun e he => hnot e (hgone e he)
  rw [find?, find?, h.isAt_eq, hbefore, hafter, List.find?_append, List.find?_append,
    List.find?_append, hnone, Option.none_or, List.find?_cons_of_neg (hnot stored hid)]

end Written

end Collection

/-! ## Stores -/

namespace Store

variable {settings : Settings} {s s' : Store} {name : String} {c : Collection} {d : Document}
  {replacing : Bool} {target : Placement} {a : RecordAnswer}

/-- What is read hangs on one collection. -/
theorem read_congr (h : s'.collection? name = s.collection? name) (id : String)
    (key : PartitionKey) : read name id key s' = read name id key s := by
  rw [read, read, h]

/-- A point read delivers the record found under the id and key, at the charge of a read. -/
theorem read_of_find? {id : String} {key : PartitionKey} (hc : s.collection? name = some c)
    (hd : c.find? id key = some d) : read name id key s = .ok ⟨some d, readCharge⟩ := by
  simp only [read, hc, hd]

/-- A point read of what is not there fails with `noItem`. -/
theorem read_of_missing {id : String} {key : PartitionKey} (hc : s.collection? name = some c)
    (hnone : c.find? id key = none) : read name id key s = .error (.noItem id) := by
  simp only [read, hc, hnone]

/-- Where the same is found the same is read. -/
theorem read_eq_of_find? {c' : Collection} {id : String} {key : PartitionKey}
    (hc' : s'.collection? name = some c') (hc : s.collection? name = some c)
    (h : c'.find? id key = c.find? id key) : read name id key s' = read name id key s := by
  simp only [read, hc', hc, h]

/-- **What was written is read back.**  After a write that succeeds, in a collection whose path no
write changes, a read with the id and the key of the record answers with the record that the write
echoed.  That is the record given with its marks renewed where they stood, or else appended, and
every other field in its place.  Any other id, and any other collection, is answered as before;
only where the write made its collection, what was missing for lack of a collection is now missing
for lack of a record. -/
theorem read_written (hc : (s.opened settings name).collection? name = some c)
    (hpath : c.Unstamped) (hd : (Value.doc d).WellFormed)
    (hw : (write settings replacing name d target s).1 = .ok a) :
    ∃ id stored, d.id? = some id ∧ a.record = some stored
      ∧ stored = d.map (settings.stamper.mark s.writes) ++ settings.stamper.appended s.writes d
      ∧ c.partitionOf stored = c.partitionOf d
      ∧ read name id (c.partitionOf d) (write settings replacing name d target s).2
        = .ok ⟨some stored, readCharge⟩
      ∧ (∀ other key, other ≠ id →
        (s.collection? name = some c →
          read name other key (write settings replacing name d target s).2
            = read name other key s)
        ∧ (s.collection? name = none → read name other key s = .error (.noCollection name)
          ∧ read name other key (write settings replacing name d target s).2
            = .error (.noItem other)))
      ∧ ∀ n, n ≠ name → ∀ other key,
        read n other key (write settings replacing name d target s).2 = read n other key s := by
  obtain ⟨c₁, c', hc₁, hwrite, hecho, hafter⟩ := write_ok hw
  obtain rfl : c = c₁ := Option.some.inj (hc.symm.trans hc₁)
  obtain ⟨id, hid, hwritten⟩ := Collection.written_of_write hwrite
  have hat : c.isAt id (c.partitionOf d) (settings.stamper.stamp s.writes d) = true :=
    Collection.isAt_own_of_write hpath.steady hd.2 hid (Collection.checkPartition_of_write hwrite)
  have hstamped : (settings.stamper.stamp s.writes d).id? = some id :=
    (id?_stamp _ _ _).trans (requireId_ok_iff.mp hid).1
  have hturns : Turns s (write settings replacing name d target s).2 name (some c') := by
    rw [hafter]
    exact (turns_put _ name c' _).of_opened
  refine ⟨id, _, (requireId_ok_iff.mp hid).1, hecho, settings.stamper.stamp_eq s.writes hd.1,
    hpath.steady _ _ d, ?_, fun other key hne => ⟨fun hmet => ?_, fun hnone => ⟨?_, ?_⟩⟩, ?_⟩
  · exact read_of_find? hturns.becomes (hwritten.find?_own hat)
  · exact read_eq_of_find? hturns.becomes hmet (hwritten.find?_other hstamped hne key)
  · rw [read, hnone]
  · -- the collection was made for the write, and is empty but for the record
    rcases addressed_of_opened hc with hmet | ⟨-, -, rfl⟩
    · rw [hnone] at hmet
      cases hmet
    · exact read_of_missing hturns.becomes (hwritten.find?_other hstamped hne key)
  · exact fun n hn other key => read_congr (hturns.others n hn) other key

/-- A part whose shelf number comes in another type than before, with a stale mark in front. -/
def moved : Document :=
  [("_etag", .text "stale"), ("id", .text "a"), ("shelf", .int32 2), ("size", .null)]

/-- The part takes the place of the second one, whose shelf number is wider, and is found under its
own; the mark is new where it stood, and the time stands behind the rest. -/
theorem read_written_moved : ∃ a,
    (write numbering true "parts" moved ⟨.value (.int64 2), none⟩ (after numbering shelving {})).1
      = .ok a
    ∧ a.record = some [("_etag", .text "4"), ("id", .text "a"), ("shelf", .int32 2),
        ("size", .null), ("_ts", .int64 0)]
    ∧ read "parts" "a" (.value (.int32 2)) (write numbering true "parts" moved
        ⟨.value (.int64 2), none⟩ (after numbering shelving {})).2 = .ok ⟨a.record, readCharge⟩
    ∧ ∀ key, read "parts" "b" key (write numbering true "parts" moved ⟨.value (.int64 2), none⟩
        (after numbering shelving {})).2 = read "parts" "b" key (after numbering shelving {}) := by
  obtain ⟨a, hw⟩ : ∃ a, (write numbering true "parts" moved ⟨.value (.int64 2), none⟩
      (after numbering shelving {})).1 = .ok a := ⟨_, rfl⟩
  have hc : (after numbering shelving {}).collection? "parts" = some parts := rfl
  have hopened : ((after numbering shelving {}).opened numbering "parts").collection? "parts"
      = some parts := rfl
  have hpath : parts.Unstamped := by
    rintro path ⟨⟩
    exact ⟨by decide, by decide⟩
  have hd : (Value.doc moved).WellFormed := ⟨by decide, trivial, trivial, trivial, trivial, trivial⟩
  obtain ⟨id, stored, hid, hrecord, hstored, -, hread, hothers, -⟩ :=
    read_written hopened hpath hd hw
  obtain rfl : "a" = id := Option.some.inj hid
  refine ⟨a, hw, ?_, ?_, fun key => (hothers "b" key (by decide)).1 hc⟩
  · rw [hrecord, hstored]
    rfl
  · rw [hrecord]
    exact hread

end Store

end DocQuery
