/-
  One record for an id in a partition.

  A write looks for a record of its own id and partition and goes to the place of the first one;
  only where there is none it goes behind the others.  So no two records of a collection have an
  id in common that lie in the same partition.

  For that a key has to name one partition, as a text does, and the key of what lies in none.
  Numbers count by value, after rounding: two that differ may both equal a third, and a record
  that is written under the third takes the place of the first and stays beside the second.

  The invariant is stated for plain keys, since for others it is not true.  What a write must show
  is that the record it puts in is alone: in the place of another it has the same id and an equal
  key, and whoever equalled it equalled the one before; behind all others it was looked for and
  not found.  Both are lemmas about one list with a place in it, and have nothing of stores in
  them.

  1. `PartitionKey.isPlain`: keys that equal no other key;
  2. `Collection.Step`: what a call makes of a collection, one record at a time;
  3. `Kept`: what calls keep is true of all collections that they make;
  4. `Collection.Keyed`: every record has an id, and there is one for an id and a plain key.
-/
import DocQuery.Proofs.Changes

namespace DocQuery

/-! ## Plain keys -/

/-- A text equals itself and nothing else. -/
theorem Value.equals_text {v : Value} {s : String} : v.equals (.text s) = true ↔ v = .text s := by
  cases v <;> simp [Value.equals, Value.isNumber, Value.same]

/-- A key that equals no other. -/
def PartitionKey.isPlain : PartitionKey → Bool
  | none | value (.text _) => true
  | _ => false

/-- A plain key is the same as no other key. -/
theorem PartitionKey.same_plain {k key : PartitionKey} (h : key.isPlain = true) :
    k.same key = true ↔ k = key := by
  cases key with
  | none => cases k <;> simp [same]
  | value v =>
    cases v with
    | text s =>
      cases k with
      | none => simp [same]
      | value w =>
        rw [same, Value.equals_text]
        exact ⟨fun hw => congrArg value hw, fun hw => value.inj hw⟩
    | _ => cases h

/-! ## Stamped records -/

/-- A stamp leaves all other fields. -/
theorem get?_stamp (stamper : Stamper) (n : Nat) (d : Document) {key : String}
    (hversion : key ≠ versionField) (htimestamp : key ≠ timestampField) :
    (stamper.stamp n d).get? key = d.get? key := by
  rw [Stamper.stamp, Fields.get?_insert_of_ne _ htimestamp, Fields.get?_insert_of_ne _ hversion]

/-- A record keeps its id when it is stamped. -/
theorem id?_stamp (stamper : Stamper) (n : Nat) (d : Document) :
    (stamper.stamp n d).id? = d.id? := by
  rw [Document.id?, Document.getText?, get?_stamp stamper n d (by decide) (by decide)]
  rfl

/-- A stamp leaves the id, so a stamped record is the same record to a store. -/
theorem requireId_stamp (stamper : Stamper) (n : Nat) (d : Document) :
    (stamper.stamp n d).requireId = d.requireId := by
  rw [Document.requireId, id?_stamp, ← Document.requireId]

/-- A record that may be stored has an id, and it is not empty. -/
theorem requireId_ok_iff {d : Document} {id : String} :
    d.requireId = .ok id ↔ d.id? = some id ∧ id ≠ "" := by
  rw [Document.requireId]
  cases d.id? with
  | none => simp
  | some i =>
    dsimp only
    by_cases hi : i.isEmpty = true
    · obtain rfl := String.isEmpty_iff.mp hi
      rw [if_pos hi]
      refine ⟨nofun, ?_⟩
      rintro ⟨hid, hne⟩
      exact absurd (Option.some.inj hid).symm hne
    · rw [if_neg hi]
      constructor
      · intro hid
        obtain rfl := Except.ok.inj hid
        exact ⟨rfl, fun hempty => hi (String.isEmpty_iff.mpr hempty)⟩
      · rintro ⟨hid, -⟩
        rw [Option.some.inj hid]

namespace Collection

variable {c c' : Collection} {id : String} {key : PartitionKey} {place : Nat}
  {d : Document} {before behind : List Document}

/-! ## Records in front of a place and behind it -/

/-- The place that is found is behind records that are not at it. -/
theorem parts_of_position? (h : c.position? id key = some place) :
    ∃ before d behind, c.records = before ++ d :: behind ∧ before.length = place
      ∧ c.isAt id key d = true ∧ ∀ e ∈ before, c.isAt id key e = false := by
  obtain ⟨hlt, hat, hbefore⟩ := List.findIdx?_eq_some_iff_getElem.mp h
  refine ⟨c.records.take place, c.records[place], c.records.drop (place + 1), ?_, ?_, hat, ?_⟩
  · rw [← List.drop_eq_getElem_cons hlt, List.take_append_drop]
  · rw [List.length_take]
    omega
  · intro e he
    obtain ⟨i, hi, rfl⟩ := List.mem_take_iff_getElem.mp he
    have hlt : i < place := by omega
    simpa using hbefore i hlt

/-- The place of a record is behind those in front of it, if none of them is the one looked for. -/
theorem position?_of_parts (h : c.records = before ++ d :: behind) (hat : c.isAt id key d = true)
    (hbefore : ∀ e ∈ before, c.isAt id key e = false) :
    c.position? id key = some before.length := by
  have hnone : before.findIdx? (c.isAt id key) = none := by
    rw [List.findIdx?_eq_none_iff]
    exact hbefore
  rw [position?, h, List.findIdx?_append, hnone, List.findIdx?_cons, if_pos hat]
  simp

/-- What is nowhere is no record of the list. -/
theorem position?_eq_none_iff :
    c.position? id key = none ↔ ∀ e ∈ c.records, c.isAt id key e = false :=
  List.findIdx?_eq_none_iff

/-- The record between is the one at its place. -/
theorem getElem?_of_parts (h : c.records = before ++ d :: behind) :
    c.records[before.length]? = some d := by
  rw [h, List.getElem?_append_right (Nat.le_refl _), Nat.sub_self, List.getElem?_cons_zero]

/-- A record that is replaced keeps its place. -/
theorem records_replace (h : c.records = before ++ d :: behind) (new : Document) :
    (c.replace before.length new).records = before ++ new :: behind := by
  show c.records.set before.length new = _
  rw [h, List.set_append_right _ _ (Nat.le_refl _), Nat.sub_self, List.set_cons_zero]

/-- Taking out the record at a place leaves those in front of it and those behind it. -/
theorem records_erase (h : c.records = before ++ d :: behind) :
    (c.erase before.length).records = before ++ behind := by
  show c.records.eraseIdx before.length = _
  rw [h, List.eraseIdx_append_of_length_le (Nat.le_refl _), Nat.sub_self, List.eraseIdx_cons_zero]

/-- Without a path every record is in the one partition. -/
theorem partitionOf_of_unpartitioned (h : c.properties.partitionPath = none) (d : Document) :
    c.partitionOf d = .none := by
  simp only [partitionOf, h]

/-- Outside partitions a record is where its id is. -/
theorem isAt_of_unpartitioned (h : c.properties.partitionPath = none) :
    c.isAt id key d = (d.id? == some id) := by
  rw [isAt, isPartitioned, h]
  exact Bool.and_true _

/-- Without a partition path a record is found by its id under any key. -/
theorem isAt_own (h : c.properties.partitionPath = none) (hid : d.requireId = .ok id) :
    c.isAt id key d = true := by
  rw [isAt_of_unpartitioned h, (requireId_ok_iff.mp hid).1]
  exact beq_self_eq_true _

/-! ## Steps -/

/-- What one write or deletion makes of a collection: a stamped record is added where there is
none of its id and partition, or put in the place of the first one, or some record is taken out. -/
inductive Step (stamper : Stamper) (c : Collection) : Collection → Prop
  | added (n : Nat) {d : Document} {id : String} (hid : d.requireId = .ok id)
      (hnone : c.position? id (c.partitionOf d) = none) : Step stamper c (c.append (stamper.stamp n d))
  | replaced (n : Nat) {d : Document} {id : String} {place : Nat} (hid : d.requireId = .ok id)
      (hplace : c.position? id (c.partitionOf d) = some place) :
      Step stamper c (c.replace place (stamper.stamp n d))
  | erased (place : Nat) : Step stamper c (c.erase place)

/-! ## Ids and partitions -/

/-- A record stays in its partition when it is stamped. -/
def Steady (c : Collection) : Prop :=
  ∀ (stamper : Stamper) (n : Nat) (d : Document),
    c.partitionOf (stamper.stamp n d) = c.partitionOf d

/-- Outside partitions there is nothing to move. -/
theorem steady_of_unpartitioned (h : c.properties.partitionPath = none) : c.Steady := by
  intro stamper n d
  rw [partitionOf_of_unpartitioned h, partitionOf_of_unpartitioned h]

/-- Every record has an id, and there is one at most for an id and a plain key. -/
structure Keyed (c : Collection) : Prop where
  named : ∀ d ∈ c.records, ∃ id, d.requireId = .ok id
  once : c.Steady → ∀ id key, key.isPlain = true →
    c.records.Pairwise fun d e => ¬ (c.isAt id key d = true ∧ c.isAt id key e = true)

/-- In an empty collection there is nothing to tell apart. -/
theorem keyed_empty (properties : CollectionProperties) : (empty properties).Keyed where
  named _ hd := absurd hd List.not_mem_nil
  once _ _ _ _ := .nil

/-- Records that are taken out leave the others keyed. -/
theorem Keyed.sublist (h : c.Keyed) {records : List Document} (hsub : records.Sublist c.records) :
    Keyed { c with records } where
  named d hd := h.named d (hsub.mem hd)
  once hsteady id key hkey := (h.once hsteady id key hkey).sublist hsub

/-- To be where a stamped record is, as far as a plain key says, is to be where it was to go. -/
theorem isAt_eq_of_stamp {stamper : Stamper} {n : Nat} {id' : String} (hsteady : c.Steady)
    (hkey : key.isPlain = true) (hid : d.requireId = .ok id)
    (h : c.isAt id' key (stamper.stamp n d) = true) :
    c.isAt id' key = c.isAt id (c.partitionOf d) := by
  obtain ⟨hid?, -⟩ := requireId_ok_iff.mp hid
  rw [isAt, Bool.and_eq_true, id?_stamp, hid?, beq_iff_eq, hsteady] at h
  obtain ⟨hsame, hpartition⟩ := h
  obtain rfl : id = id' := Option.some.inj hsame
  funext e
  rw [isAt, isAt]
  cases hpartitioned : c.isPartitioned with
  | false => rfl
  | true =>
    rw [hpartitioned, Bool.not_true, Bool.false_or, PartitionKey.same_plain hkey] at hpartition
    rw [hpartition]

/-- **A step leaves one record for an id and a plain key.** -/
theorem Keyed.step {stamper : Stamper} (h : c.Keyed) (hstep : Step stamper c c') : c'.Keyed := by
  cases hstep with
  | @added n d id hid hnone =>
    refine ⟨?_, fun hsteady id' key hkey => ?_⟩
    · intro e he
      rcases List.mem_append.mp he with he | he
      · exact h.named e he
      · rw [List.mem_singleton.mp he]
        exact ⟨id, (requireId_stamp _ _ _).trans hid⟩
    · refine List.pairwise_append.mpr ⟨h.once hsteady id' key hkey, List.pairwise_singleton _ _, ?_⟩
      rintro e he new hnew ⟨hate, hatnew⟩
      rw [List.mem_singleton.mp hnew] at hatnew
      -- the new record would not be new
      have heq : c.isAt id' key = c.isAt id (c.partitionOf d) :=
        isAt_eq_of_stamp hsteady hkey hid hatnew
      have hat : c.isAt id' key e = true := hate
      rw [heq, position?_eq_none_iff.mp hnone e he] at hat
      cases hat
  | @replaced n d id place hid hplace =>
    obtain ⟨before, old, behind, hrecords, rfl, hold, -⟩ := parts_of_position? hplace
    have hrest : ∀ e ∈ before ++ behind, e ∈ c.records := by
      intro e he
      rw [hrecords]
      exact (List.sublist_append_right [old] behind |>.append_left before).mem he
    refine ⟨?_, fun hsteady id' key hkey => ?_⟩
    · intro e he
      rw [records_replace hrecords] at he
      rcases List.mem_cons.mp (List.perm_middle.mem_iff.mp he) with rfl | he
      · exact ⟨id, (requireId_stamp _ _ _).trans hid⟩
      · exact h.named e (hrest e he)
    · have honce := h.once hsteady id' key hkey
      rw [hrecords, List.pairwise_middle (fun hne hboth => hne hboth.symm)] at honce
      obtain ⟨hne, hothers⟩ := List.pairwise_cons.mp honce
      rw [records_replace hrecords, List.pairwise_middle (fun hne hboth => hne hboth.symm)]
      refine List.pairwise_cons.mpr ⟨?_, hothers⟩
      rintro e he ⟨hatnew, hate⟩
      -- whoever is where the new record is was where the old one was
      refine hne e he ⟨?_, hate⟩
      have heq : c.isAt id' key = c.isAt id (c.partitionOf d) :=
        isAt_eq_of_stamp hsteady hkey hid hatnew
      rw [heq]
      exact hold
  | erased place => exact h.sublist (List.eraseIdx_sublist _ _)

end Collection

namespace Store

open Collection (Step Keyed)

/-! ## All collections of a store -/

/-- Something is true of every collection under its name. -/
def Everywhere (P : String → Collection → Prop) (s : Store) : Prop :=
  ∀ name c, s.collection? name = some c → P name c

/-- Something is true of every collection. -/
def Throughout (P : Collection → Prop) (s : Store) : Prop :=
  ∀ name c, s.collection? name = some c → P c

/-- Some calls keep something true of collections: empty ones have it, and if one has it, so has
what a call makes of it, one record at a time.  Only an upsert puts a record in the place of
another. -/
structure Kept (settings : Settings) (calls : List Call) (P : String → Collection → Prop) :
    Prop where
  empty (name : String) (properties : CollectionProperties) : P name (.empty properties)
  added {name : String} {c : Collection} {d : Document} {id : String} (n : Nat) :
    P name c → d.requireId = .ok id → c.position? id (c.partitionOf d) = none →
    P name (c.append (settings.stamper.stamp n d))
  replaced {name : String} {c : Collection} {d : Document} {target : Placement} {id : String}
    {place : Nat} (n : Nat) :
    Call.upsert name d target ∈ calls → P name c → d.requireId = .ok id →
    c.position? id (c.partitionOf d) = some place →
    P name (c.replace place (settings.stamper.stamp n d))
  erased {name : String} {c : Collection} (place : Nat) : P name c → P name (c.erase place)

section Kept

variable {P : String → Collection → Prop} {settings : Settings} {calls : List Call} {s : Store}
  {name : String} {c : Collection}

/-- What is true of all collections is so when one is put in that it is true of. -/
theorem Everywhere.put (h : Everywhere P s) (hc : P name c) (n : Nat) :
    Everywhere P ⟨(s.put name c).collections, n⟩ := by
  intro other c' hc'
  by_cases hname : other = name
  · rw [hname, collection?_put] at hc'
    rw [hname, ← Option.some.inj hc']
    exact hc
  · refine h other c' ?_
    rw [← hc']
    exact (Fields.get?_insert_of_ne _ hname _).symm

namespace Kept

variable (hkept : Kept settings calls P)
include hkept

/-- New collections are empty. -/
theorem withCollection (h : Everywhere P s) (path : Option String) :
    Everywhere P (s.withCollection name path) := by
  rw [Store.withCollection]
  split
  · exact h
  · exact h.put (hkept.empty _ _) s.writes

/-- A property of all collections survives a write that makes its collection, if new collections
have it. -/
theorem opened (h : Everywhere P s) : Everywhere P (s.opened settings name) := by
  rw [Store.opened]
  split
  · exact hkept.withCollection h none
  · exact h

/-- A write makes one step of one collection. -/
theorem write (h : Everywhere P s) {replacing : Bool} {d : Document} {target : Placement}
    (hcall : replacing = true → Call.upsert name d target ∈ calls) :
    Everywhere P (Store.write settings replacing name d target s).2 := by
  cases hw : (Store.write settings replacing name d target s).1 with
  | error f =>
    rw [write_fault hw]
    exact hkept.opened h
  | ok a =>
    obtain ⟨c, c', hc, hwrite, -, hs⟩ := write_ok hw
    have hbefore := hkept.opened h name c hc
    have hafter : P name c' := by
      obtain ⟨-, id, hid, -, hplaced⟩ := Collection.write_ok hwrite
      rcases hplaced with ⟨hnone, rfl⟩ | ⟨place, hplace, hreplacing, rfl⟩
      · exact hkept.added s.writes hbefore hid hnone
      · exact hkept.replaced s.writes (hcall hreplacing) hbefore hid hplace
    rw [hs]
    exact (hkept.opened h).put hafter _

/-- A property of all collections survives loading: one step for each record, by induction on the
records. -/
theorem seedRecords (ds : List Document) (count : Nat) (h : Everywhere P s) :
    Everywhere P (Store.seedRecords settings name ds count s).2 := by
  induction ds generalizing count s with
  | nil => exact h
  | cons d ds ih =>
    rw [Store.seedRecords]
    split
    · exact h
    · rename_i c hc
      split
      · exact h
      · rename_i stored c' hinsert
        obtain ⟨rfl, id, hid, hnone⟩ := insertNew_ok hinsert
        exact ih _ (h.put (hkept.added s.writes (h name c hc) hid hnone) _)

/-- A deletion makes one step of its collection at most. -/
theorem delete (h : Everywhere P s) (id : String) (target : Placement) :
    Everywhere P (Store.delete name id target s).2 := by
  cases hd : (Store.delete name id target s).1 with
  | error f =>
    rw [delete_fault hd]
    exact h
  | ok a =>
    obtain ⟨c, place, hc, -, -, hs⟩ := delete_ok hd
    rw [hs]
    exact h.put (hkept.erased place (h name c hc)) s.writes

/-- Every call keeps what its steps keep. -/
theorem call (h : Everywhere P s) {call : Call} (hcall : call ∈ calls) :
    Everywhere P (call.after settings s) := by
  cases call with
  | register name path => exact hkept.withCollection h path
  | seed name ds =>
    rw [Call.after, Store.seed]
    split
    · exact hkept.opened h
    · exact hkept.seedRecords ds 0 (hkept.opened h)
  | create name d target =>
    exact hkept.write h fun hreplacing => absurd hreplacing Bool.false_ne_true
  | upsert name d target => exact hkept.write h fun _ => hcall
  | delete name id target => exact hkept.delete h id target
  | createCollection properties =>
    rw [Call.after, Store.createCollection]
    split
    · exact h
    · split
      · exact h
      · exact h.put (hkept.empty _ properties) s.writes
  | deleteCollection name =>
    rw [Call.after, Store.deleteCollection]
    split
    · exact h
    · intro other c hc
      by_cases hname : other = name
      · -- nothing is left under the name, so nothing is to be shown of it
        have hnone : (s.collections.erase name).get? other = none := by
          rw [hname]
          exact Fields.get?_erase_self _ _
        have hsome : (s.collections.erase name).get? other = some c := hc
        rw [hnone] at hsome
        cases hsome
      · refine h other c ?_
        rw [← hc]
        exact (Fields.get?_erase_of_ne _ hname).symm

/-- **What calls keep, all collections have that they make.**  Induction on the calls still to
come, all of them among those that keep it. -/
theorem after_of_subset (later : List Call) (hlater : ∀ call ∈ later, call ∈ calls)
    (h : Everywhere P s) : Everywhere P (Store.after settings later s) := by
  induction later generalizing s with
  | nil => exact h
  | cons call later ih =>
    obtain ⟨hcall, hrest⟩ := List.forall_mem_cons.mp hlater
    exact ih hrest (hkept.call h hcall)

/-- A property that holds of new collections and that every step keeps holds of every collection a
run can reach. -/
theorem after : Everywhere P (Store.after settings calls {}) :=
  hkept.after_of_subset calls (fun _ hcall => hcall) fun _ _ hc => absurd hc nofun

end Kept

end Kept

/-- In particular calls keep what steps keep. -/
theorem Throughout.after {P : Collection → Prop} {settings : Settings}
    (hempty : ∀ properties, P (.empty properties))
    (hstep : ∀ c c', P c → Step settings.stamper c c' → P c') (calls : List Call) :
    Throughout P (Store.after settings calls {}) := by
  have hkept : Kept settings calls fun _ => P :=
    { empty := fun _ => hempty
      added := fun n h hid hnone => hstep _ _ h (.added n hid hnone)
      replaced := fun n _ h hid hplace => hstep _ _ h (.replaced n hid hplace)
      erased := fun place h => hstep _ _ h (.erased place) }
  exact hkept.after

/-- Whatever was called, every collection is keyed. -/
theorem keyed_after (settings : Settings) (calls : List Call) :
    Throughout Keyed (Store.after settings calls {}) :=
  Throughout.after Collection.keyed_empty (fun _ _ => Keyed.step) calls

end Store

end DocQuery
