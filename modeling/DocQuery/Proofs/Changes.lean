/-
  What calls change.

  A call works on one collection and leaves the others alone.  It takes records out, or puts one
  stamped record in: behind the others or in the place of one of them; loading records puts in
  one after the other.

  Later modules follow properties of records through whole runs: ids, versions, places.  None of
  them should have to go through the calls of a store again, of which there are seven, with
  conflicts, preconditions and collections made on the way.  Here that is done once.  What is left
  are two ways in which records change, and the number of writes, which grows with every record
  that is stamped; whatever both ways keep holds behind every run, by induction on `Changes`.

  1. the records of a collection, under the steps that calls are made of;
  2. `write_ok`, `seed_records`, `delete_ok`: what calls do, and what they do if they are refused;
  3. `Change` and `Changes`: one change, and one after another;
  4. `Call` and `after`: every call is a sequence of changes, and so is every run.
-/
import DocQuery.Proofs.Outcome
import DocQuery.Store.Write

namespace DocQuery

/-! ## Places in a collection -/

namespace Collection

variable {c : Collection} {id : String} {key : PartitionKey} {place : Nat}

/-- The place that is found is that of the record that is found. -/
theorem getElem?_of_position? (h : c.position? id key = some place) :
    c.records[place]? = c.find? id key := by
  rw [find?, List.find?_eq_bind_findIdx?_getElem?]
  rw [position?] at h
  rw [h]
  rfl

/-- A place that was found is a place in the list. -/
theorem lt_of_position? (h : c.position? id key = some place) : place < c.records.length := by
  obtain ⟨hlt, -⟩ := List.findIdx?_eq_some_iff_getElem.mp h
  exact hlt

/-- What is nowhere is not found. -/
theorem find?_of_position?_none (h : c.position? id key = none) : c.find? id key = none := by
  rw [find?, List.find?_eq_bind_findIdx?_getElem?]
  rw [position?] at h
  rw [h]
  rfl

/-- A record that is found stands at a place. -/
theorem position?_of_find? {d : Document} (h : c.find? id key = some d) :
    ∃ place, c.position? id key = some place ∧ c.records[place]? = some d := by
  cases hplace : c.position? id key with
  | none =>
    rw [find?_of_position?_none hplace] at h
    cases h
  | some place => exact ⟨place, rfl, (getElem?_of_position? hplace).trans h⟩

/-- A record that may be written goes to the place of its id and partition, or behind the
others; when it may replace a record, that must have the version asked for. -/
theorem write_ok {stamp : Document → Document} {replacing : Bool} {target : Placement}
    {d stored : Document} {c' : Collection}
    (h : c.write stamp replacing target d = .ok (stored, c')) :
    stored = stamp d ∧ ∃ id, d.requireId = .ok id
      ∧ (replacing = true →
        checkVersion target.version (c.find? id (c.partitionOf d)) id = .ok ())
      ∧ ((c.position? id (c.partitionOf d) = none ∧ c' = c.append (stamp d))
        ∨ ∃ place, c.position? id (c.partitionOf d) = some place ∧ replacing = true
          ∧ c' = c.replace place (stamp d)) := by
  rw [write] at h
  obtain ⟨id, hid, h⟩ := ok_of_bind h
  obtain ⟨_, -, h⟩ := ok_of_bind h
  -- at a place there is a conflict unless the record may be replaced
  cases hplace : c.position? id (c.partitionOf d) with
  | none =>
    rw [hplace] at h
    cases replacing with
    | false =>
      cases h
      exact ⟨rfl, id, hid, nofun, .inl ⟨hplace, rfl⟩⟩
    | true =>
      obtain ⟨⟨⟩, hversion, h⟩ := ok_of_bind h
      rw [← find?_of_position?_none hplace] at hversion
      cases h
      exact ⟨rfl, id, hid, fun _ => hversion, .inl ⟨hplace, rfl⟩⟩
  | some place =>
    rw [hplace] at h
    cases replacing with
    | false => cases h
    | true =>
      obtain ⟨⟨⟩, hversion, h⟩ := ok_of_bind h
      rw [getElem?_of_position? hplace] at hversion
      cases h
      exact ⟨rfl, id, hid, fun _ => hversion, .inr ⟨place, hplace, rfl, rfl⟩⟩

end Collection

namespace Store

variable {s : Store} {settings : Settings} {name other : String} {c : Collection}

/-! ## The records of a collection -/

/-- The records under a name are those of its collection. -/
theorem records_of_collection? (h : s.collection? name = some c) : s.records name = c.records := by
  rw [records, h]
  rfl

/-- The collection that was put in is the one found under its name.  The number of writes is left
open, since a write puts the collection in before it counts. -/
theorem collection?_put (s : Store) (name : String) (c : Collection) (n : Nat) :
    (⟨(s.put name c).collections, n⟩ : Store).collection? name = some c :=
  Fields.get?_insert_self _ _ _

/-- Under the name of a collection that was put in stand its records. -/
theorem records_put (s : Store) (name : String) (c : Collection) (n : Nat) :
    (⟨(s.put name c).collections, n⟩ : Store).records name = c.records :=
  records_of_collection? (collection?_put s name c n)

/-- Putting in a collection leaves the records under every other name. -/
theorem records_put_of_ne (s : Store) (c : Collection) (n : Nat) (h : other ≠ name) :
    (⟨(s.put name c).collections, n⟩ : Store).records other = s.records other := by
  have hother : (⟨(s.put name c).collections, n⟩ : Store).collection? other
      = s.collection? other := Fields.get?_insert_of_ne _ h _
  rw [records, records, hother]

/-- A new collection without records changes no records. -/
theorem records_put_new (hnone : s.collection? name = none) (hc : c.records = [])
    (other : String) : (s.put name c).records other = s.records other := by
  by_cases h : other = name
  · rw [h]
    refine (records_put s name c s.writes).trans ?_
    rw [records, hnone, hc]
    rfl
  · exact records_put_of_ne s c s.writes h

/-- A new collection has no records, so under every name there are the same ones as before. -/
theorem records_withCollection (s : Store) (name : String) (path : Option String)
    (other : String) : (s.withCollection name path).records other = s.records other := by
  rw [withCollection]
  split
  · rfl
  · rename_i hnone
    exact records_put_new hnone rfl other

/-- A write that makes its collection first leaves the records under every name as they were. -/
theorem records_opened (settings : Settings) (s : Store) (name other : String) :
    (s.opened settings name).records other = s.records other := by
  rw [opened]
  split
  · exact records_withCollection s name none other
  · rfl

/-- Making a collection does not count as a write. -/
theorem writes_withCollection (s : Store) (name : String) (path : Option String) :
    (s.withCollection name path).writes = s.writes := by
  rw [withCollection]
  split <;> rfl

theorem writes_opened (settings : Settings) (s : Store) (name : String) :
    (s.opened settings name).writes = s.writes := by
  rw [opened]
  split
  · exact writes_withCollection s name none
  · rfl

/-! ## Calls -/

section Writing

variable {replacing : Bool} {d : Document} {target : Placement}

/-- A write that succeeds stamps its record, echoes it, and puts it into the collection. -/
theorem write_ok {a : RecordAnswer} (h : (write settings replacing name d target s).1 = .ok a) :
    ∃ c c', (s.opened settings name).collection? name = some c
      ∧ c.write (settings.stamper.stamp s.writes) replacing target d
        = .ok (settings.stamper.stamp s.writes d, c')
      ∧ a.record = some (settings.stamper.stamp s.writes d)
      ∧ (write settings replacing name d target s).2
        = ⟨((s.opened settings name).put name c').collections, s.writes + 1⟩ := by
  unfold write at h ⊢
  dsimp only at h ⊢
  rw [writes_opened] at h ⊢
  cases hc : (s.opened settings name).collection? name with
  | none =>
    rw [hc] at h
    cases h
  | some c =>
    rw [hc] at h
    dsimp only at h ⊢
    cases hw : c.write (settings.stamper.stamp s.writes) replacing target d with
    | error f =>
      rw [hw] at h
      cases h
    | ok r =>
      obtain ⟨stored, c'⟩ := r
      obtain ⟨rfl, -⟩ := Collection.write_ok hw
      rw [hw] at h
      cases h
      exact ⟨c, c', rfl, hw, rfl, rfl⟩

/-- In terms of records: the stamped one goes behind the others of its collection, or to the place
of the one of its id and partition, and the other collections stay as they are. -/
theorem write_records {a : RecordAnswer}
    (h : (write settings replacing name d target s).1 = .ok a) :
    ∃ c id, (s.opened settings name).collection? name = some c ∧ c.records = s.records name
      ∧ d.requireId = .ok id
      ∧ (replacing = true →
        checkVersion target.version (c.find? id (c.partitionOf d)) id = .ok ())
      ∧ ((c.position? id (c.partitionOf d) = none
          ∧ (write settings replacing name d target s).2.records name
            = s.records name ++ [settings.stamper.stamp s.writes d])
        ∨ ∃ place, c.position? id (c.partitionOf d) = some place ∧ replacing = true
          ∧ (write settings replacing name d target s).2.records name
            = (s.records name).set place (settings.stamper.stamp s.writes d))
      ∧ (∀ n, n ≠ name →
        (write settings replacing name d target s).2.records n = s.records n)
      ∧ (write settings replacing name d target s).2.writes = s.writes + 1 := by
  obtain ⟨c, c', hc, hw, -, hs⟩ := write_ok h
  have hrecords : c.records = s.records name := by
    rw [← records_opened settings s name name, records_of_collection? hc]
  have hothers : ∀ n, n ≠ name →
      (write settings replacing name d target s).2.records n = s.records n := by
    intro n hn
    rw [hs, records_put_of_ne _ _ _ hn, records_opened]
  obtain ⟨-, id, hid, hversion, hplaced⟩ := Collection.write_ok hw
  refine ⟨c, id, hc, hrecords, hid, hversion, ?_, hothers, by rw [hs]⟩
  rcases hplaced with ⟨hnone, rfl⟩ | ⟨place, hplace, hreplacing, rfl⟩
  · refine .inl ⟨hnone, ?_⟩
    rw [hs, records_put, ← hrecords]
    rfl
  · refine .inr ⟨place, hplace, hreplacing, ?_⟩
    rw [hs, records_put, ← hrecords]
    rfl

/-- A write that is refused creates the collection, at most. -/
theorem write_fault {f : Fault} (h : (write settings replacing name d target s).1 = .error f) :
    (write settings replacing name d target s).2 = s.opened settings name := by
  unfold write at h ⊢
  dsimp only at h ⊢
  split
  · rfl
  · rename_i c hc
    split
    · rfl
    · rename_i stored c' hw
      rw [hc] at h
      dsimp only at h
      rw [hw] at h
      cases h

end Writing

/-- Deleting takes out the record of an id in a partition, if it has the version asked for. -/
theorem delete_ok {id : String} {target : Placement} {a : RecordAnswer}
    (h : (delete name id target s).1 = .ok a) :
    ∃ c place, s.collection? name = some c ∧ c.position? id target.partitionKey = some place
      ∧ checkVersion target.version (c.find? id target.partitionKey) id = .ok ()
      ∧ (delete name id target s).2 = s.put name (c.erase place) := by
  unfold delete at h ⊢
  cases hc : s.collection? name with
  | none =>
    rw [hc] at h
    cases h
  | some c =>
    rw [hc] at h
    dsimp only at h ⊢
    cases hplace : c.position? id target.partitionKey with
    | none =>
      rw [hplace] at h
      cases h
    | some place =>
      rw [hplace] at h
      dsimp only at h ⊢
      rw [Collection.getElem?_of_position? hplace] at h ⊢
      cases hversion : checkVersion target.version (c.find? id target.partitionKey) id with
      | error f =>
        rw [hversion] at h
        cases h
      | ok u => exact ⟨c, place, rfl, hplace, hversion, rfl⟩

/-- A deletion that succeeds takes out the one record at the place it was looked for, and leaves the
other collections alone. -/
theorem delete_records {id : String} {target : Placement} {a : RecordAnswer}
    (h : (delete name id target s).1 = .ok a) :
    ∃ c place, s.collection? name = some c ∧ c.position? id target.partitionKey = some place
      ∧ (delete name id target s).2.records name = (s.records name).eraseIdx place
      ∧ ∀ n, n ≠ name → (delete name id target s).2.records n = s.records n := by
  obtain ⟨c, place, hc, hplace, -, hs⟩ := delete_ok h
  refine ⟨c, place, hc, hplace, ?_, ?_⟩
  · rw [hs, records_of_collection? hc]
    exact records_put s name (c.erase place) s.writes
  · intro n hn
    rw [hs]
    exact records_put_of_ne s (c.erase place) s.writes hn

/-- A refused deletion changes nothing. -/
theorem delete_fault {id : String} {target : Placement} {f : Fault}
    (h : (delete name id target s).1 = .error f) : (delete name id target s).2 = s := by
  unfold delete at h ⊢
  split
  · rfl
  · rename_i c hc
    split
    · rfl
    · rename_i place hplace
      split
      · rfl
      · rename_i hversion
        rw [hc] at h
        dsimp only at h
        rw [hplace] at h
        dsimp only at h
        rw [hversion] at h
        cases h

/-- A collection is deleted with all its records, and no other. -/
theorem records_deleteCollection (s : Store) (name other : String) :
    (deleteCollection name s).2.records other
      = if other = name then [] else s.records other := by
  rw [deleteCollection]
  split
  · rename_i hnone
    split
    · rename_i h
      rw [records, h, hnone]
      rfl
    · rfl
  · rw [records, collection?]
    split
    · rename_i h
      rw [h, Fields.get?_erase_self]
      rfl
    · rename_i h
      rw [Fields.get?_erase_of_ne _ h]
      rfl

/-- Deleting a collection is no write. -/
theorem writes_deleteCollection (s : Store) (name : String) :
    (deleteCollection name s).2.writes = s.writes := by
  rw [deleteCollection]
  split <;> rfl

/-! ## Changes -/

/-- One change of a store: records are taken out, or a stamped one is put in. -/
inductive Change (settings : Settings) (s s' : Store) : Prop
  | thinned (hrecords : ∀ n, (s'.records n).Sublist (s.records n)) (hwrites : s'.writes = s.writes)
  | appended (name : String) (d : Document)
      (hrecords : s'.records name = s.records name ++ [settings.stamper.stamp s.writes d])
      (hothers : ∀ n, n ≠ name → s'.records n = s.records n) (hwrites : s'.writes = s.writes + 1)
  | replaced (name : String) (place : Nat) (d : Document) (hplace : place < (s.records name).length)
      (hrecords : s'.records name
        = (s.records name).set place (settings.stamper.stamp s.writes d))
      (hothers : ∀ n, n ≠ name → s'.records n = s.records n) (hwrites : s'.writes = s.writes + 1)

/-- One change after another. -/
inductive Changes (settings : Settings) : Store → Store → Prop
  | none {s : Store} : Changes settings s s
  | next {s s₁ s' : Store} : Change settings s s₁ → Changes settings s₁ s' → Changes settings s s'

variable {s' s₁ : Store}

/-- One change is a sequence of changes. -/
theorem Change.once (h : Change settings s s') : Changes settings s s' :=
  .next h .none

/-- Changes may go on where others end. -/
theorem Changes.trans (h : Changes settings s s₁) (h' : Changes settings s₁ s') :
    Changes settings s s' := by
  induction h with
  | none => exact h'
  | next hchange _ ih => exact .next hchange (ih h')

/-- Where the records stay as they are nothing is taken out. -/
theorem Change.of_records (h : ∀ n, s'.records n = s.records n) (hwrites : s'.writes = s.writes) :
    Change settings s s' :=
  .thinned (fun n => (h n).symm ▸ .refl _) hwrites

/-- A collection goes on as part of what it was. -/
theorem Change.of_put {c' : Collection} (hc : s.collection? name = some c)
    (h : c'.records.Sublist c.records) : Change settings s (s.put name c') := by
  refine .thinned (fun n => ?_) rfl
  by_cases hn : n = name
  · rw [hn, records_of_collection? hc]
    exact (records_put s name c' s.writes).symm ▸ h
  · have hother : (s.put name c').records n = s.records n := records_put_of_ne s c' s.writes hn
    exact hother.symm ▸ .refl _

/-- Making a collection on the way changes no records. -/
theorem opened_change (settings : Settings) (s : Store) (name : String) :
    Change settings s (s.opened settings name) :=
  .of_records (records_opened settings s name) (writes_opened settings s name)

/-- A write that succeeds is one change. -/
theorem write_change {replacing : Bool} {d : Document} {target : Placement} {a : RecordAnswer}
    (h : (write settings replacing name d target s).1 = .ok a) :
    Change settings s (write settings replacing name d target s).2 := by
  obtain ⟨c, id, -, hrecords, -, -, hplaced, hothers, hwrites⟩ := write_records h
  rcases hplaced with ⟨-, hput⟩ | ⟨place, hplace, -, hput⟩
  · exact .appended name d hput hothers hwrites
  · refine .replaced name place d ?_ hput hothers hwrites
    rw [← hrecords]
    exact Collection.lt_of_position? hplace

/-- A write is a sequence of changes, be it refused or not. -/
theorem write_changes (settings : Settings) (replacing : Bool) (name : String) (d : Document)
    (target : Placement) (s : Store) :
    Changes settings s (write settings replacing name d target s).2 := by
  cases h : (write settings replacing name d target s).1 with
  | ok a => exact (write_change h).once
  | error f =>
    rw [write_fault h]
    exact (opened_change settings s name).once

/-- A deletion is a sequence of changes: one that takes a record out, or none. -/
theorem delete_changes (settings : Settings) (name id : String) (target : Placement) (s : Store) :
    Changes settings s (delete name id target s).2 := by
  cases h : (delete name id target s).1 with
  | ok a =>
    obtain ⟨c, place, hc, -, -, hs⟩ := delete_ok h
    rw [hs]
    exact (Change.of_put hc (List.eraseIdx_sublist _ _)).once
  | error f =>
    rw [delete_fault h]
    exact .none

/-! ## Loading -/

/-- Records as they are loaded: each is stamped with the number of its write. -/
def stampedFrom (settings : Settings) : Nat → List Document → List Document
  | _, [] => []
  | n, d :: ds => settings.stamper.stamp n d :: stampedFrom settings (n + 1) ds

/-- Each record is stamped once. -/
theorem length_stampedFrom (settings : Settings) (n : Nat) (ds : List Document) :
    (stampedFrom settings n ds).length = ds.length := by
  induction ds generalizing n with
  | nil => rfl
  | cons d ds ih => rw [stampedFrom, List.length_cons, List.length_cons, ih]

/-- A record that is loaded comes behind all others, with its stamp, and there was none at its id
and partition. -/
theorem insertNew_ok {stamp : Document → Document} {d stored : Document} {c' : Collection}
    (h : c.insertNew stamp d = .ok (stored, c')) :
    c' = c.append (stamp d)
      ∧ ∃ id, d.requireId = .ok id ∧ c.position? id (c.partitionOf d) = none := by
  rw [Collection.insertNew] at h
  obtain ⟨id, hid, h⟩ := ok_of_bind h
  split at h
  · cases h
  · rename_i hnone
    exact ⟨(Prod.mk.inj (Except.ok.inj h)).2.symm, id, hid, hnone⟩

/-- Loading puts stamped records behind those that are there, one after the other, up to the
first that cannot be loaded. -/
theorem seedRecords_loads (settings : Settings) (name : String) :
    ∀ (ds : List Document) (count : Nat) (s : Store),
      Changes settings s (seedRecords settings name ds count s).2
      ∧ ∃ loaded, (seedRecords settings name ds count s).2.records name
          = s.records name ++ stampedFrom settings s.writes loaded
        ∧ ∀ n, (seedRecords settings name ds count s).1 = .ok n → loaded = ds := by
  intro ds
  induction ds with
  | nil =>
    intro count s
    exact ⟨.none, [], (List.append_nil _).symm, fun _ _ => rfl⟩
  | cons d ds ih =>
    intro count s
    rw [seedRecords]
    cases hc : s.collection? name with
    | none => exact ⟨.none, [], (List.append_nil _).symm, fun _ h => by cases h⟩
    | some c =>
      dsimp only
      cases hinsert : c.insertNew (settings.stamper.stamp s.writes) d with
      | error f => exact ⟨.none, [], (List.append_nil _).symm, fun _ h => by cases h⟩
      | ok r =>
        obtain ⟨stored, c'⟩ := r
        obtain ⟨rfl, -⟩ := insertNew_ok hinsert
        dsimp only
        have hrecords : (⟨(s.put name (c.append (settings.stamper.stamp s.writes d))).collections,
            s.writes + 1⟩ : Store).records name
              = s.records name ++ [settings.stamper.stamp s.writes d] := by
          rw [records_put, records_of_collection? hc]
          rfl
        -- one record is in, the others follow from the store with it
        obtain ⟨hrest, loaded, hloaded, hall⟩ := ih (count + 1)
          ⟨(s.put name (c.append (settings.stamper.stamp s.writes d))).collections, s.writes + 1⟩
        have hothers : ∀ n, n ≠ name →
            (⟨(s.put name (c.append (settings.stamper.stamp s.writes d))).collections,
              s.writes + 1⟩ : Store).records n = s.records n :=
          fun n hn => records_put_of_ne s _ _ hn
        refine ⟨.next (.appended name d hrecords hothers rfl) hrest, d :: loaded, ?_, ?_⟩
        · rw [hloaded, hrecords, List.append_assoc]
          rfl
        · intro n hn
          rw [hall n hn]

/-- **Loading** is a sequence of changes.  It puts some of the records, stamped one after the other,
behind those that were there, and all of them if it succeeds. -/
theorem seed_loads (settings : Settings) (name : String) (ds : List Document) (s : Store) :
    Changes settings s (seed settings name ds s).2
    ∧ ∃ loaded, (seed settings name ds s).2.records name
        = s.records name ++ stampedFrom settings s.writes loaded
      ∧ ∀ n, (seed settings name ds s).1 = .ok n → loaded = ds := by
  have hopened := (opened_change settings s name).once
  have hrecords := records_opened settings s name name
  rw [seed]
  cases hc : (s.opened settings name).collection? name with
  | none =>
    refine ⟨hopened, [], ?_, fun _ h => by cases h⟩
    exact hrecords.trans (List.append_nil _).symm
  | some c =>
    obtain ⟨hload, hloaded⟩ := seedRecords_loads settings name ds 0 (s.opened settings name)
    rw [hrecords, writes_opened] at hloaded
    exact ⟨hopened.trans hload, hloaded⟩

/-! ## Runs -/

/-- A call that may change a store. -/
inductive Call where
  | register (name : String) (partitionPath : Option String)
  | seed (name : String) (ds : List Document)
  | create (name : String) (d : Document) (target : Placement)
  | upsert (name : String) (d : Document) (target : Placement)
  | delete (name id : String) (target : Placement)
  | createCollection (properties : CollectionProperties)
  | deleteCollection (name : String)

/-- The store after a call, whether it succeeds or not. -/
def Call.after (settings : Settings) : Call → Store → Store
  | register name partitionPath, s => s.withCollection name partitionPath
  | seed name ds, s => (Store.seed settings name ds s).2
  | create name d target, s => (Store.create settings name d target s).2
  | upsert name d target, s => (Store.upsert settings name d target s).2
  | delete name id target, s => (Store.delete name id target s).2
  | createCollection properties, s => (Store.createCollection properties s).2
  | deleteCollection name, s => (Store.deleteCollection name s).2

/-- The store after some calls. -/
def after (settings : Settings) (calls : List Call) (s : Store) : Store :=
  calls.foldl (fun s call => call.after settings s) s

/-- **Every call is a sequence of changes.** -/
theorem Call.changes (settings : Settings) (call : Call) (s : Store) :
    Changes settings s (call.after settings s) := by
  cases call with
  | register name path =>
    refine (Change.of_records (records_withCollection s name path) ?_).once
    exact writes_withCollection s name path
  | seed name ds => exact (seed_loads settings name ds s).1
  | create name d target => exact write_changes settings false name d target s
  | upsert name d target => exact write_changes settings true name d target s
  | delete name id target => exact delete_changes settings name id target s
  | createCollection properties =>
    rw [Call.after, Store.createCollection]
    split
    · exact .none
    · split
      · exact .none
      · rename_i hnone
        -- an existing collection is left alone, a new one has no records
        exact (Change.of_records (records_put_new hnone rfl) rfl).once
  | deleteCollection name =>
    refine (Change.thinned (fun n => ?_) (writes_deleteCollection s name)).once
    show ((Store.deleteCollection name s).2.records n).Sublist (s.records n)
    rw [records_deleteCollection]
    split
    · exact List.nil_sublist _
    · exact .refl _

/-- A run goes on where its first part ends. -/
theorem after_append (settings : Settings) (calls later : List Call) (s : Store) :
    after settings (calls ++ later) s = after settings later (after settings calls s) :=
  List.foldl_append

/-- Every run of calls is a sequence of changes. -/
theorem after_changes (settings : Settings) (calls : List Call) (s : Store) :
    Changes settings s (after settings calls s) := by
  induction calls generalizing s with
  | nil => exact .none
  | cons call calls ih => exact (call.changes settings s).trans (ih (call.after settings s))

end Store

end DocQuery
