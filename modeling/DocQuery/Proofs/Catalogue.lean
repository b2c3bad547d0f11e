/-
  A collection without partitions is a map.

  A collection is a list that every call searches from the front.  Outside partitions a record is
  known by its id alone, so the list is a map from ids to records that remembers in which order
  the ids came.  `Catalogue` is that map, and says for itself how it answers calls; keys of
  partitions do not occur in it.

  Calls are compared one by one, and the comparison is a simulation: a store that shows a
  catalogue replies as the catalogue does, and shows what becomes of it.  What has to be seen for
  one call is that the first record that a scan of the list meets is the one that the map has for
  the id.  That rests on there being one record for an id, which holds of every collection without
  partitions that calls can make, whatever keys of partitions they name.  A catalogue has nowhere
  to put such a key, so that no call hangs on one needs no proof of its own.

  1. `Catalogue`: records by id, and the calls it answers;
  2. `ItemCall` and `Reply`: calls on the records of a collection, and what is seen of an answer;
  3. `Collection.Shows`: a collection whose records are those of a catalogue;
  4. `Store.call_shown`: one call, on a store and on the catalogue;
  5. `unpartitioned_is_catalogue`: all calls, one after another.
-/
import DocQuery.Proofs.Keys
import DocQuery.Proofs.Versions

namespace DocQuery

open Store (Fault Settings)

/-! ## Catalogues -/

/-- The id that a record is kept by: a text, and not an empty one. -/
def Document.ownId? (d : Document) : Option String :=
  d.id?.filter (· ≠ "")

/-- Whether a version that is asked for is that of a record, if there is one. -/
def versionFits (version : Option String) (current : Option Document) : Bool :=
  version.all fun t => decide (current.bind Document.version? = some t)

/-- What is seen of an answer. -/
inductive Reply where
  /-- a record, if there is one to show -/
  | record (d : Option Document)
  | loaded (count : Nat)
  | refused (status : Nat)

/-- Records by id, in order of first insertion, and the number of writes so far. -/
structure Catalogue where
  entries : Fields Document
  writes : Nat
  /-- no id stands for two records -/
  distinct : (entries.map Prod.fst).Nodup
  /-- every record has the id that it is kept by -/
  own : ∀ e ∈ entries, e.2.ownId? = some e.1

namespace Catalogue

variable (m : Catalogue) (stamper : Stamper)

/-- The records in order. -/
def records : List Document :=
  m.entries.map Prod.snd

/-- The record of an id. -/
def get? (id : String) : Option Document :=
  m.entries.get? id

/-- An id that does not occur, or the entries around it. -/
theorem parts (id : String) : id ∉ m.entries.map Prod.fst
    ∨ ∃ before old behind, m.entries = before ++ (id, old) :: behind
      ∧ id ∉ before.map Prod.fst ∧ id ∉ behind.map Prod.fst := by
  by_cases h : id ∈ m.entries.map Prod.fst
  · obtain ⟨⟨id', old⟩, hmem, hid⟩ := List.mem_map.mp h
    obtain rfl : id = id' := hid.symm
    obtain ⟨before, behind, hentries⟩ := List.append_of_mem hmem
    have hdistinct := m.distinct
    rw [hentries, List.map_append, List.map_cons, List.Nodup,
      List.pairwise_middle (fun hne => hne.symm)] at hdistinct
    have hnew : ∀ other, other ∈ before.map Prod.fst ++ behind.map Prod.fst → id ≠ other :=
      (List.pairwise_cons.mp hdistinct).1
    exact .inr ⟨before, old, behind, hentries,
      fun hb => hnew id (List.mem_append_left _ hb) rfl,
      fun hb => hnew id (List.mem_append_right _ hb) rfl⟩
  · exact .inl h

/-- The record of an id is found behind all others that have another id. -/
theorem get?_present {id : String} {before behind : Fields Document} {old : Document}
    (hentries : m.entries = before ++ (id, old) :: behind) (hbefore : id ∉ before.map Prod.fst) :
    m.get? id = some old := by
  rw [get?, hentries, Fields.get?_middle hbefore]

/-- Keep a record by its id: in the place of the one there, or behind all others. -/
def keep (d : Document) (id : String) (h : d.ownId? = some id) : Catalogue where
  entries := m.entries.insert id d
  writes := m.writes + 1
  distinct := by
    rcases m.parts id with hnew | ⟨before, old, behind, hentries, hbefore, -⟩
    · rw [Fields.insert_of_not_mem hnew, List.map_append]
      refine List.pairwise_append.mpr ⟨m.distinct, List.pairwise_singleton _ _, ?_⟩
      rintro a ha b hb rfl
      obtain rfl := List.mem_singleton.mp hb
      exact hnew ha
    · have hdistinct := m.distinct
      rw [hentries] at hdistinct ⊢
      rw [Fields.insert_middle hbefore]
      simpa using hdistinct
  own := by
    rcases m.parts id with hnew | ⟨before, old, behind, hentries, hbefore, -⟩
    · intro e he
      rw [Fields.insert_of_not_mem hnew] at he
      rcases List.mem_append.mp he with he | he
      · exact m.own e he
      · rw [List.mem_singleton.mp he]
        exact h
    · intro e he
      rw [hentries, Fields.insert_middle hbefore] at he
      rcases List.mem_append.mp he with he | he
      · exact m.own e (hentries ▸ List.mem_append_left _ he)
      · rcases List.mem_cons.mp he with rfl | he
        · exact h
        · exact m.own e (hentries ▸ List.mem_append_right _ (List.mem_cons_of_mem _ he))

/-- Take out the record of an id. -/
def remove (id : String) : Catalogue where
  entries := m.entries.erase id
  writes := m.writes
  distinct := m.distinct.sublist (List.Sublist.map _ List.filter_sublist)
  own e he := m.own e (List.mem_filter.mp he).1

/-- A stamp leaves a record its id. -/
theorem ownId?_stamp (n : Nat) (d : Document) : (stamper.stamp n d).ownId? = d.ownId? := by
  rw [Document.ownId?, id?_stamp, ← Document.ownId?]

/-- Write a record of a new id. -/
def create (d : Document) : Reply × Catalogue :=
  match h : d.ownId? with
  | none => (.refused 400, m)
  | some id =>
    match m.get? id with
    | some _ => (.refused 409, m)
    | none =>
      let stored := stamper.stamp m.writes d
      (.record stored, m.keep stored id ((ownId?_stamp stamper m.writes d).trans h))

/-- Write a record, be the id new or not, over a version if one is asked for. -/
def upsert (d : Document) (version : Option String) : Reply × Catalogue :=
  match h : d.ownId? with
  | none => (.refused 400, m)
  | some id =>
    if versionFits version (m.get? id) then
      let stored := stamper.stamp m.writes d
      (.record stored, m.keep stored id ((ownId?_stamp stamper m.writes d).trans h))
    else (.refused 412, m)

/-- Delete the record of an id, at a version if one is asked for. -/
def delete (id : String) (version : Option String) : Reply × Catalogue :=
  match m.get? id with
  | none => (.refused 404, m)
  | some d => if versionFits version (some d) then (.record none, m.remove id) else (.refused 412, m)

/-- Read the record of an id. -/
def read (id : String) : Reply :=
  match m.get? id with
  | none => .refused 404
  | some d => .record d

/-- Write records of new ids, up to the first that cannot be. -/
def seed (stamper : Stamper) : List Document → Nat → Catalogue → Reply × Catalogue
  | [], count, m => (.loaded count, m)
  | d :: ds, count, m =>
    match m.create stamper d with
    | (.refused status, m) => (.refused status, m)
    | (_, m) => seed stamper ds (count + 1) m

/-- A new record without an id is refused. -/
theorem create_nameless {d : Document} (h : d.ownId? = none) :
    m.create stamper d = (.refused 400, m) := by
  rw [create]
  split
  · rfl
  · rename_i hid
    rw [h] at hid
    cases hid

/-- A new record with an id is refused if there is one of that id, and comes behind all others if
not. -/
theorem create_named {d : Document} {id : String} (h : d.ownId? = some id) :
    m.create stamper d = match m.get? id with
      | some _ => (.refused 409, m)
      | none => (.record (stamper.stamp m.writes d), m.keep (stamper.stamp m.writes d) id
          ((ownId?_stamp stamper m.writes d).trans h)) := by
  rw [create]
  split
  · rename_i hnone
    rw [h] at hnone
    cases hnone
  · rename_i id' hid
    obtain rfl : id' = id := Option.some.inj (hid.symm.trans h)
    rfl

/-- A record without an id is refused, whatever version is asked for. -/
theorem upsert_nameless {d : Document} (h : d.ownId? = none) (version : Option String) :
    m.upsert stamper d version = (.refused 400, m) := by
  rw [upsert]
  split
  · rfl
  · rename_i hid
    rw [h] at hid
    cases hid

/-- A record with an id is refused if the version asked for is not there; else it takes the place of
the one with its id, or comes behind all others. -/
theorem upsert_named {d : Document} {id : String} (h : d.ownId? = some id)
    (version : Option String) :
    m.upsert stamper d version = if versionFits version (m.get? id) then
      (.record (stamper.stamp m.writes d), m.keep (stamper.stamp m.writes d) id
        ((ownId?_stamp stamper m.writes d).trans h)) else (.refused 412, m) := by
  rw [upsert]
  split
  · rename_i hnone
    rw [h] at hnone
    cases hnone
  · rename_i id' hid
    obtain rfl : id' = id := Option.some.inj (hid.symm.trans h)
    rfl

end Catalogue

/-! ## Calls -/

/-- A call on the records of a collection. -/
inductive ItemCall where
  | seed (ds : List Document)
  | create (d : Document) (target : Placement)
  | upsert (d : Document) (target : Placement)
  | delete (id : String) (target : Placement)
  | read (id : String) (key : PartitionKey)

namespace ItemCall

/-- The call with another partition key, if it has one. -/
def withKey (key : PartitionKey) : ItemCall → ItemCall
  | seed ds => seed ds
  | create d target => create d { target with partitionKey := key }
  | upsert d target => upsert d { target with partitionKey := key }
  | delete id target => delete id { target with partitionKey := key }
  | read id _ => read id key

end ItemCall

/-- What is seen of an answer about a record. -/
def Reply.ofRecord : Except Fault RecordAnswer → Reply
  | .ok a => record a.record
  | .error f => refused f.status

/-- What is seen of an answer to a loading call. -/
def Reply.ofCount : Except Fault Nat → Reply
  | .ok n => loaded n
  | .error f => refused f.status

/-- A call on a collection of a store. -/
def Store.call (settings : Settings) (name : String) : ItemCall → Store → Reply × Store
  | .seed ds, s =>
    let (r, s) := Store.seed settings name ds s
    (.ofCount r, s)
  | .create d target, s =>
    let (r, s) := Store.create settings name d target s
    (.ofRecord r, s)
  | .upsert d target, s =>
    let (r, s) := Store.upsert settings name d target s
    (.ofRecord r, s)
  | .delete id target, s =>
    let (r, s) := Store.delete name id target s
    (.ofRecord r, s)
  | .read id key, s => (.ofRecord (Store.read name id key s), s)

/-- A call on a catalogue.  It has nowhere to put the key of a partition. -/
def Catalogue.call (stamper : Stamper) : ItemCall → Catalogue → Reply × Catalogue
  | .seed ds, m => m.seed stamper ds 0
  | .create d _, m => m.create stamper d
  | .upsert d target, m => m.upsert stamper d target.version
  | .delete id target, m => m.delete id target.version
  | .read id _, m => (m.read id, m)

/-- The replies to some calls, one after another, and what is there behind them. -/
def conduct {σ : Type} (step : ItemCall → σ → Reply × σ) : List ItemCall → σ → List Reply × σ
  | [], s => ([], s)
  | call :: calls, s =>
    let (reply, s) := step call s
    let (replies, s) := conduct step calls s
    (reply :: replies, s)

/-! ## Conditions -/

/-- The id of a record is the one that a store takes it for. -/
theorem ownId?_eq_some_iff {d : Document} {id : String} :
    d.ownId? = some id ↔ d.requireId = .ok id := by
  rw [requireId_ok_iff, Document.ownId?, Option.filter_eq_some_iff, decide_eq_true_iff]

/-- Without it a store refuses the record. -/
theorem requireId_of_nameless {d : Document} (h : d.ownId? = none) :
    d.requireId = .error .noId := by
  cases hid : d.requireId with
  | ok id =>
    rw [ownId?_eq_some_iff.mpr hid] at h
    cases h
  | error f =>
    rw [Document.requireId] at hid
    split at hid
    · split at hid
      · exact hid ▸ rfl
      · cases hid
    · exact hid ▸ rfl

/-- The check of a store passes every version that fits the current record. -/
theorem checkVersion_of_fits {version : Option String} {current : Option Document} (id : String)
    (h : versionFits version current = true) : checkVersion version current id = .ok () := by
  cases version with
  | none => rfl
  | some t =>
    have hcarried : current.bind Document.version? = some t := of_decide_eq_true h
    rcases checkVersion_some t current id with ⟨-, hok⟩ | ⟨hne, -⟩
    · exact hok
    · exact absurd hcarried hne

/-- A version that does not fit is refused with 412, the status of a failed precondition. -/
theorem checkVersion_of_unfit {version : Option String} {current : Option Document} (id : String)
    (h : versionFits version current = false) :
    ∃ f, checkVersion version current id = .error f ∧ f.status = 412 := by
  cases version with
  | none => cases h
  | some t =>
    have hother : current.bind Document.version? ≠ some t := of_decide_eq_false h
    rcases checkVersion_some t current id with ⟨hcarried, -⟩ | ⟨-, hrefused⟩
    · exact absurd hcarried hother
    · exact hrefused

/-! ## One collection -/

/-- A collection without partitions whose records are those of a catalogue. -/
structure Collection.Shows (c : Collection) (m : Catalogue) : Prop where
  path : c.properties.partitionPath = none
  records : c.records = m.records

namespace Collection.Shows

variable {c : Collection} {m : Catalogue} {id : String} {key : PartitionKey}
  {stamper : Stamper} {d : Document} {target : Placement}

/-- A record is found by the id that it is kept by, whatever the partition. -/
theorem isAt_entry (h : c.Shows m) {e : String × Document} (he : e ∈ m.entries) :
    c.isAt id key e.2 = (e.1 == id) := by
  obtain ⟨hid, -⟩ := requireId_ok_iff.mp (ownId?_eq_some_iff.mp (m.own e he))
  rw [isAt_of_unpartitioned h.path, hid]
  rfl

/-- An id that is not in the catalogue is nowhere in the collection, whatever key is asked for. -/
theorem position?_absent (h : c.Shows m) (hid : id ∉ m.entries.map Prod.fst) :
    c.position? id key = none := by
  rw [position?_eq_none_iff, h.records]
  intro d hd
  obtain ⟨e, he, rfl⟩ := List.mem_map.mp hd
  rw [h.isAt_entry he, beq_eq_false_iff_ne]
  rintro rfl
  exact hid (List.mem_map_of_mem he)

/-- An entry of the catalogue is a record of the collection, in the same place. -/
theorem records_parts (h : c.Shows m) {before behind : Fields Document} {old : Document}
    (hentries : m.entries = before ++ (id, old) :: behind) :
    c.records = before.map Prod.snd ++ old :: behind.map Prod.snd := by
  rw [h.records, Catalogue.records, hentries, List.map_append, List.map_cons]

/-- An id that is in the catalogue is found at its place, whatever key is asked for. -/
theorem position?_present (h : c.Shows m) {before behind : Fields Document} {old : Document}
    (hentries : m.entries = before ++ (id, old) :: behind) (hbefore : id ∉ before.map Prod.fst) :
    c.position? id key = some before.length := by
  have hat : ∀ e ∈ before ++ (id, old) :: behind, c.isAt id key e.2 = (e.1 == id) := by
    rw [← hentries]
    exact fun e he => h.isAt_entry he
  rw [← List.length_map Prod.snd]
  refine position?_of_parts (h.records_parts hentries) ?_ ?_
  · rw [hat (id, old) (List.mem_append_right _ List.mem_cons_self)]
    exact beq_self_eq_true id
  · intro d hd
    obtain ⟨e, he, rfl⟩ := List.mem_map.mp hd
    rw [hat e (List.mem_append_left _ he), beq_eq_false_iff_ne]
    rintro rfl
    exact hbefore (List.mem_map_of_mem he)

/-- And there stands the record of the entry. -/
theorem getElem?_present (h : c.Shows m) {before behind : Fields Document} {old : Document}
    (hentries : m.entries = before ++ (id, old) :: behind) :
    c.records[before.length]? = some old := by
  rw [← List.length_map Prod.snd]
  exact getElem?_of_parts (h.records_parts hentries)

/-- What a collection and a catalogue make of a write: both refuse it with one status, or both
have the same records afterwards. -/
inductive Agree (c : Collection) (m : Catalogue) :
    Except Fault (Document × Collection) → Reply × Catalogue → Prop
  | refused (f : Fault) : Agree c m (.error f) (.refused f.status, m)
  | written (stored : Document) (c' : Collection) (m' : Catalogue) (hshows : c'.Shows m')
      (hwrites : m'.writes = m.writes + 1) : Agree c m (.ok (stored, c')) (.record stored, m')

/-- A record that is kept behind the others. -/
theorem append_keep (h : c.Shows m) (hid : d.ownId? = some id)
    (hnew : id ∉ m.entries.map Prod.fst) : (c.append d).Shows (m.keep d id hid) := by
  refine ⟨h.path, ?_⟩
  show c.records ++ [d] = (m.entries.insert id d).map Prod.snd
  rw [h.records, Fields.insert_of_not_mem hnew, List.map_append]
  rfl

/-- A record that is kept in the place of another. -/
theorem replace_keep (h : c.Shows m) (hid : d.ownId? = some id) {before behind : Fields Document}
    {old : Document} (hentries : m.entries = before ++ (id, old) :: behind)
    (hbefore : id ∉ before.map Prod.fst) :
    (c.replace before.length d).Shows (m.keep d id hid) := by
  refine ⟨h.path, ?_⟩
  have hplace : before.length = (before.map Prod.snd).length := (List.length_map Prod.snd).symm
  rw [hplace, records_replace (h.records_parts hentries)]
  show _ = (m.entries.insert id d).map Prod.snd
  rw [hentries, Fields.insert_middle hbefore, List.map_append, List.map_cons]

/-- A record that is taken out. -/
theorem erase_remove (h : c.Shows m) {before behind : Fields Document} {old : Document}
    (hentries : m.entries = before ++ (id, old) :: behind) (hbefore : id ∉ before.map Prod.fst)
    (hbehind : id ∉ behind.map Prod.fst) : (c.erase before.length).Shows (m.remove id) := by
  refine ⟨h.path, ?_⟩
  have hplace : before.length = (before.map Prod.snd).length := (List.length_map Prod.snd).symm
  rw [hplace, records_erase (h.records_parts hentries)]
  show _ = (m.entries.erase id).map Prod.snd
  rw [hentries, Fields.erase_middle hbefore hbehind, List.map_append]

/-- Outside partitions a write is decided by id and version. -/
theorem write_eq (h : c.Shows m) (stamp : Document → Document) (replacing : Bool)
    (hid : d.requireId = .ok id) : c.write stamp replacing target d
      = match c.position? id .none, replacing with
        | some _, false => .error (.itemExists id)
        | some place, true => do
          checkVersion target.version c.records[place]? id
          .ok (stamp d, c.replace place (stamp d))
        | none, true => do
          checkVersion target.version none id
          .ok (stamp d, c.append (stamp d))
        | none, false => .ok (stamp d, c.append (stamp d)) := by
  have hown := partitionOf_of_unpartitioned h.path d
  have hcheck : c.checkPartition .none target.partitionKey = .ok () := by
    rw [checkPartition, isPartitioned, h.path]
    rfl
  rw [write, hid]
  dsimp only
  rw [hown, hcheck]
  rfl

/-- Creating: collection and catalogue answer alike, and show the same afterwards. -/
theorem create_agree (h : c.Shows m) :
    Agree c m (c.write (stamper.stamp m.writes) false target d) (m.create stamper d) := by
  cases hid : d.ownId? with
  | none =>
    rw [m.create_nameless stamper hid, write, requireId_of_nameless hid]
    exact .refused .noId
  | some id =>
    rw [m.create_named stamper hid, h.write_eq _ _ (ownId?_eq_some_iff.mp hid)]
    rcases m.parts id with hnew | ⟨before, old, behind, hentries, hbefore, -⟩
    · rw [h.position?_absent hnew, Catalogue.get?, Fields.get?_eq_none_iff.mpr hnew]
      exact .written _ _ _ (h.append_keep _ hnew) rfl
    · rw [h.position?_present hentries hbefore, m.get?_present hentries hbefore]
      exact .refused (.itemExists id)

/-- A step behind a check of the version: they agree on the refusal, and on what comes of it
otherwise. -/
theorem Agree.of_version {stored : Document} {c' : Collection} {m' : Catalogue}
    (version : Option String) (current : Option Document) (id : String)
    (hshows : c'.Shows m') (hwrites : m'.writes = m.writes + 1) :
    Agree c m (checkVersion version current id >>= fun _ => .ok (stored, c'))
      (if versionFits version current then (.record stored, m') else (.refused 412, m)) := by
  cases hfits : versionFits version current with
  | true =>
    rw [checkVersion_of_fits id hfits]
    exact .written stored c' m' hshows hwrites
  | false =>
    obtain ⟨f, hf, hstatus⟩ := checkVersion_of_unfit id hfits
    rw [hf, ← hstatus]
    exact .refused f

/-- Upserting: collection and catalogue answer alike, and show the same afterwards. -/
theorem upsert_agree (h : c.Shows m) :
    Agree c m (c.write (stamper.stamp m.writes) true target d)
      (m.upsert stamper d target.version) := by
  cases hid : d.ownId? with
  | none =>
    rw [m.upsert_nameless stamper hid, write, requireId_of_nameless hid]
    exact .refused .noId
  | some id =>
    rw [m.upsert_named stamper hid, h.write_eq _ _ (ownId?_eq_some_iff.mp hid)]
    rcases m.parts id with hnew | ⟨before, old, behind, hentries, hbefore, -⟩
    · rw [h.position?_absent hnew, Catalogue.get?, Fields.get?_eq_none_iff.mpr hnew]
      exact .of_version _ _ id (h.append_keep _ hnew) rfl
    · rw [h.position?_present hentries hbefore, m.get?_present hentries hbefore]
      dsimp only
      rw [h.getElem?_present hentries]
      exact .of_version _ _ id (h.replace_keep _ hentries hbefore) rfl

/-- Loading a record is creating it: a key that is given makes no difference. -/
theorem insertNew_eq (h : c.Shows m) (stamp : Document → Document) (target : Placement) :
    c.insertNew stamp d = c.write stamp false target d := by
  rw [insertNew]
  cases hid : d.requireId with
  | error f =>
    rw [write, hid]
    rfl
  | ok id =>
    rw [h.write_eq stamp false hid, partitionOf_of_unpartitioned h.path]
    simp only [bind, Except.bind]
    cases c.position? id .none <;> rfl

end Collection.Shows

namespace Store

open Collection.Shows (Agree)

variable {settings : Settings} {s : Store} {name id : String} {c : Collection} {m : Catalogue}
  {d : Document} {target : Placement}

/-! ## One call -/

/-- A store with a collection that shows a catalogue. -/
structure Shows (name : String) (s : Store) (m : Catalogue) : Prop where
  collection : ∃ c, s.collection? name = some c ∧ c.Shows m
  writes : s.writes = m.writes

/-- A store and a catalogue reply alike, and go on alike. -/
structure Alike (name : String) (r : Reply × Store) (r' : Reply × Catalogue) : Prop where
  reply : r.1 = r'.1
  shows : Shows name r.2 r'.2

/-- A collection that exists need not be created. -/
theorem opened_of_collection? (settings : Settings) (hc : s.collection? name = some c) :
    s.opened settings name = s := by
  rw [opened, withCollection, hc]
  split <;> rfl

/-- What a store holds under the name are the records of the catalogue. -/
theorem records_of_shows (h : Shows name s m) : s.records name = m.records := by
  obtain ⟨⟨c, hc, hshows⟩, -⟩ := h
  rw [records_of_collection? hc, hshows.records]

/-- A collection that shows a catalogue makes a store that does. -/
theorem shows_put (h : c.Shows m) (n : Nat) (hn : n = m.writes) :
    Shows name ⟨(s.put name c).collections, n⟩ m :=
  ⟨⟨c, collection?_put s name c n, h⟩, hn⟩

/-- A write, to a collection that there is already or to one that it makes. -/
theorem write_alike {replacing : Bool} {answer : Reply × Catalogue} (h : Shows name s m)
    (hagree : ∀ c : Collection, c.Shows m →
      Agree c m (c.write (settings.stamper.stamp m.writes) replacing target d) answer) :
    Alike name (.ofRecord (write settings replacing name d target s).1,
      (write settings replacing name d target s).2) answer := by
  obtain ⟨⟨c, hc, hshows⟩, hwrites⟩ := h
  have hagree := hagree c hshows
  unfold write
  rw [opened_of_collection? settings hc]
  simp only [hc, hwrites]
  generalize c.write (settings.stamper.stamp m.writes) replacing target d = outcome at hagree ⊢
  cases hagree with
  | refused f => exact ⟨rfl, ⟨c, hc, hshows⟩, hwrites⟩
  | written stored c' m' hshows' hwrites' => exact ⟨rfl, shows_put hshows' _ hwrites'.symm⟩

/-- A deletion. -/
theorem delete_alike (h : Shows name s m) :
    Alike name (.ofRecord (delete name id target s).1, (delete name id target s).2)
      (m.delete id target.version) := by
  obtain ⟨⟨c, hc, hshows⟩, hwrites⟩ := h
  have hsame : Shows name s m := ⟨⟨c, hc, hshows⟩, hwrites⟩
  rw [delete, Catalogue.delete]
  simp only [hc]
  rcases m.parts id with hnew | ⟨before, old, behind, hentries, hbefore, hbehind⟩
  · rw [hshows.position?_absent hnew, Catalogue.get?, Fields.get?_eq_none_iff.mpr hnew]
    exact ⟨rfl, hsame⟩
  · rw [hshows.position?_present hentries hbefore, m.get?_present hentries hbefore]
    dsimp only
    rw [hshows.getElem?_present hentries]
    cases hfits : versionFits target.version (some old) with
    | true =>
      rw [checkVersion_of_fits id hfits]
      exact ⟨rfl, shows_put (hshows.erase_remove hentries hbefore hbehind) _ hwrites⟩
    | false =>
      obtain ⟨f, hf, hstatus⟩ := checkVersion_of_unfit id hfits
      rw [hf]
      exact ⟨congrArg Reply.refused hstatus, hsame⟩

/-- Reading a record.  The key of a partition has no part in it. -/
theorem read_alike {key : PartitionKey} (h : Shows name s m) :
    Alike name (.ofRecord (read name id key s), s) (m.read id, m) := by
  refine ⟨?_, h⟩
  obtain ⟨⟨c, hc, hshows⟩, -⟩ := h
  rw [read, Catalogue.read]
  simp only [hc]
  rcases m.parts id with hnew | ⟨before, old, behind, hentries, hbefore, -⟩
  · rw [Collection.find?_of_position?_none (hshows.position?_absent hnew), Catalogue.get?,
      Fields.get?_eq_none_iff.mpr hnew]
    rfl
  · rw [← Collection.getElem?_of_position? (hshows.position?_present hentries hbefore),
      hshows.getElem?_present hentries, m.get?_present hentries hbefore]
    rfl

/-- Loading, record by record up to the first that is refused.  Induction on the records. -/
theorem seedRecords_alike (settings : Settings) (name : String) :
    ∀ (ds : List Document) (count : Nat) (s : Store) (m : Catalogue), Shows name s m →
      Alike name (.ofCount (seedRecords settings name ds count s).1,
        (seedRecords settings name ds count s).2)
        (Catalogue.seed settings.stamper ds count m) := by
  intro ds
  induction ds with
  | nil => exact fun count s m h => ⟨rfl, h⟩
  | cons d ds ih =>
    rintro count s m ⟨⟨c, hc, hshows⟩, hwrites⟩
    have hagree : Agree c m (c.write (settings.stamper.stamp m.writes) false {} d)
        (m.create settings.stamper d) := hshows.create_agree
    rw [seedRecords, Catalogue.seed]
    simp only [hc, hwrites]
    rw [hshows.insertNew_eq _ {}]
    generalize c.write (settings.stamper.stamp m.writes) false {} d = outcome at hagree ⊢
    generalize m.create settings.stamper d = answer at hagree ⊢
    cases hagree with
    | refused f => exact ⟨rfl, ⟨c, hc, hshows⟩, hwrites⟩
    | written stored c' m' hshows' hwrites' =>
      exact ih (count + 1) _ m' (shows_put hshows' _ hwrites'.symm)

/-- **A store and the catalogue that it shows reply to a call alike, and go on alike.** -/
theorem call_alike (settings : Settings) (h : Shows name s m) (call : ItemCall) :
    Alike name (Store.call settings name call s) (m.call settings.stamper call) := by
  cases call with
  | seed ds =>
    obtain ⟨⟨c, hc, hshows⟩, hwrites⟩ := h
    have hseed : seed settings name ds s = seedRecords settings name ds 0 s := by
      rw [seed, opened_of_collection? settings hc]
      simp only [hc]
    rw [Store.call, hseed]
    exact seedRecords_alike settings name ds 0 s m ⟨⟨c, hc, hshows⟩, hwrites⟩
  | create d target => exact write_alike h fun c hshows => hshows.create_agree
  | upsert d target => exact write_alike h fun c hshows => hshows.upsert_agree
  | delete id target => exact delete_alike h
  | read id key => exact read_alike h

/-! ## Calls one after another -/

/-- **Calls one after another.** Induction on the calls: each leaves store and catalogue alike, so
the next finds them so. -/
theorem conduct_alike (settings : Settings) (calls : List ItemCall) (h : Shows name s m) :
    (conduct (Store.call settings name) calls s).1
      = (conduct (Catalogue.call settings.stamper) calls m).1
    ∧ Shows name (conduct (Store.call settings name) calls s).2
      (conduct (Catalogue.call settings.stamper) calls m).2 := by
  induction calls generalizing s m with
  | nil => exact ⟨rfl, h⟩
  | cons call calls ih =>
    have hcall := call_alike settings h call
    obtain ⟨hreplies, hshows⟩ := ih hcall.shows
    rw [conduct, conduct]
    dsimp only
    rw [hcall.reply, hreplies]
    exact ⟨rfl, hshows⟩

/-- Calls that differ in the keys of partitions alone are the same to a catalogue. -/
theorem conduct_withKey (stamper : Stamper) (key : PartitionKey) (calls : List ItemCall)
    (m : Catalogue) : conduct (Catalogue.call stamper) (calls.map (ItemCall.withKey key)) m
      = conduct (Catalogue.call stamper) calls m := by
  induction calls generalizing m with
  | nil => rfl
  | cons call calls ih =>
    have hcall : m.call stamper (call.withKey key) = m.call stamper call := by
      cases call <;> rfl
    rw [List.map_cons, conduct, conduct, hcall]
    dsimp only
    rw [ih]

end Store

/-- The catalogue of a collection whose records have ids of their own. -/
def Collection.Keyed.catalogue {c : Collection} (h : c.Keyed)
    (hpath : c.properties.partitionPath = none) (writes : Nat) : Catalogue where
  entries := c.records.map fun d => (d.ownId?.getD "", d)
  writes := writes
  distinct := by
    rw [List.map_map, List.Nodup, List.pairwise_map, List.pairwise_iff_getElem]
    intro i j hi hj hlt hsame
    obtain ⟨id, hid⟩ := h.named c.records[i] (List.getElem_mem hi)
    obtain ⟨id', hid'⟩ := h.named c.records[j] (List.getElem_mem hj)
    obtain rfl : id = id' := by
      simpa [ownId?_eq_some_iff.mpr hid, ownId?_eq_some_iff.mpr hid'] using hsame
    -- two records of one id, and no partitions to tell them apart
    have honce := h.once (steady_of_unpartitioned hpath) id .none rfl
    exact List.pairwise_iff_getElem.mp honce i j hi hj hlt
      ⟨isAt_own hpath hid, isAt_own hpath hid'⟩
  own := by
    intro e he
    obtain ⟨d, hd, rfl⟩ := List.mem_map.mp he
    obtain ⟨id, hid⟩ := h.named d hd
    rw [ownId?_eq_some_iff.mpr hid]
    rfl

/-- A collection without partitions, in which each id comes once, is the catalogue of its records.
-/
theorem Collection.Keyed.shows_catalogue {c : Collection} (h : c.Keyed)
    (hpath : c.properties.partitionPath = none) (writes : Nat) :
    c.Shows (h.catalogue hpath writes) := by
  refine ⟨hpath, ?_⟩
  show c.records = (c.records.map fun d => (d.ownId?.getD "", d)).map Prod.snd
  rw [List.map_map]
  exact (List.map_id' _).symm

namespace Store

/-- **Without partitions a collection is a map in order of insertion.**  Whatever was called
before: the records of such a collection are those of a catalogue, and calls on the records of the
collection get the replies of the catalogue and leave the records of the catalogue.  So the keys of
partitions that come with the calls make no difference. -/
theorem unpartitioned_is_catalogue (settings : Settings) (past : List Call) {name : String}
    {c : Collection} (hc : (after settings past {}).collection? name = some c)
    (hpath : c.properties.partitionPath = none) :
    ∃ m : Catalogue, m.records = c.records
      ∧ ∀ calls : List ItemCall,
        (conduct (Store.call settings name) calls (after settings past {})).1
          = (conduct (Catalogue.call settings.stamper) calls m).1
        ∧ (conduct (Store.call settings name) calls (after settings past {})).2.records name
          = (conduct (Catalogue.call settings.stamper) calls m).2.records
        ∧ ∀ calls' : List ItemCall,
          calls'.map (ItemCall.withKey .none) = calls.map (ItemCall.withKey .none) →
          (conduct (Store.call settings name) calls' (after settings past {})).1
            = (conduct (Store.call settings name) calls (after settings past {})).1
          ∧ (conduct (Store.call settings name) calls' (after settings past {})).2.records name
            = (conduct (Store.call settings name) calls (after settings past {})).2.records name := by
  have hkeyed := keyed_after settings past name c hc
  let m := hkeyed.catalogue hpath (after settings past {}).writes
  have hshows : c.Shows m := hkeyed.shows_catalogue hpath _
  refine ⟨m, hshows.records.symm, fun calls => ?_⟩
  have hs : Shows name (after settings past {}) m := ⟨⟨c, hc, hshows⟩, rfl⟩
  obtain ⟨hreplies, hend⟩ := conduct_alike settings calls hs
  refine ⟨hreplies, records_of_shows hend, fun calls' hkeys => ?_⟩
  obtain ⟨hreplies', hend'⟩ := conduct_alike settings calls' hs
  -- a catalogue does not see the keys
  have hsame := conduct_withKey settings.stamper .none calls' m
  rw [hkeys, conduct_withKey] at hsame
  rw [hreplies, hreplies', records_of_shows hend, records_of_shows hend', hsame]
  exact ⟨rfl, rfl⟩

/-- A shelf with one book. -/
def stocking : List Call :=
  [.register "shelf" none, .seed "shelf" [[("id", .text "b1"), ("copies", .int32 2)]]]

/-- The collection then. -/
def shelf : Collection where
  properties := ⟨"shelf", none, 400⟩
  records := [[("id", .text "b1"), ("copies", .int32 2), ("_etag", .text "0"), ("_ts", .int64 0)]]

/-- Calls on the shelf, some of which have to be refused. -/
def lending : List ItemCall :=
  [.create [("id", .text "b1")] { version := some "9" },
    .create [("id", .text "b2")] {},
    .upsert [("id", .text "b1"), ("copies", .int32 1)] { version := some "0" },
    .upsert [("id", .text "b1"), ("copies", .int32 0)] { version := some "0" },
    .delete "b2" { version := some "7" },
    .read "b3" .none,
    .seed [[("copies", .int32 5)]],
    .read "b1" .none]

/-- With any key, the replies are those of a map. -/
theorem unpartitioned_is_catalogue_shelf :
    (∃ m : Catalogue, m.records = shelf.records
      ∧ (conduct (Store.call numbering "shelf") lending (after numbering stocking {})).1
        = (conduct (Catalogue.call numbering.stamper) lending m).1)
    ∧ (conduct (Store.call numbering "shelf") (lending.map (ItemCall.withKey (.value (.int32 3))))
        (after numbering stocking {})).1
      = [.refused 409,
          .record (some [("id", .text "b2"), ("_etag", .text "1"), ("_ts", .int64 0)]),
          .record (some
            [("id", .text "b1"), ("copies", .int32 1), ("_etag", .text "2"), ("_ts", .int64 0)]),
          .refused 412, .refused 412, .refused 404, .refused 400,
          .record (some
            [("id", .text "b1"), ("copies", .int32 1), ("_etag", .text "2"), ("_ts", .int64 0)])] := by
  have hc : (after numbering stocking {}).collection? "shelf" = some shelf := rfl
  obtain ⟨m, hrecords, hcalls⟩ := unpartitioned_is_catalogue numbering stocking hc rfl
  obtain ⟨hreplies, -, hkeys⟩ := hcalls lending
  refine ⟨⟨m, hrecords, hreplies⟩, ?_⟩
  rw [(hkeys (lending.map (ItemCall.withKey (.value (.int32 3)))) rfl).1]
  rfl

end Store

end DocQuery
