/-
  Writing to a store, and reading single records.

  A refused call leaves the store as it was, but for the collection that a write may have
  created.  A version that is asked for must be that of the stored record; since every write
  stamps a new one, of several writers that read the same version one succeeds.

  A write checks in a fixed order: the id of the record, the partition given for it, whether
  there is a record already, and the version of that.  The two kinds of write differ only in what
  a record that is there already means to them.  Seeding checks no version, and the partition is
  always the record's own.
-/
import DocQuery.Store

namespace DocQuery

open Store (Fault)

/-! ## Conditions -/

/-- The id of a record that may be stored. -/
def Document.requireId (d : Document) : Except Fault String :=
  match d.id? with
  | some id => if id.isEmpty then .error .noId else .ok id
  | none => .error .noId

/-- Whether the stored record, if there is one, has the version asked for. -/
def checkVersion (version : Option String) (current : Option Document) (id : String) :
    Except Fault Unit :=
  match version with
  | none => .ok ()
  | some version =>
    match current.bind Document.version? with
    | some actual => if actual = version then .ok () else .error (.stale id version)
    | none => .error (.vanished id version)

/-! ## One collection -/

namespace Collection

/-- The partition given must be the record's own, in a partitioned collection. -/
def checkPartition (c : Collection) (own given : PartitionKey) : Except Fault Unit :=
  if c.isPartitioned && !own.same given then .error (.otherPartition given own) else .ok ()

/-- Add a record that is not there yet, marked by `stamp`; the record and the collection. -/
def insertNew (c : Collection) (stamp : Document → Document) (d : Document) :
    Except Fault (Document × Collection) := do
  let id ← d.requireId
  match c.position? id (c.partitionOf d) with
  | some _ => .error (.itemExists id)
  | none => .ok (stamp d, c.append (stamp d))

/-- Add a record, or replace the one of its id and partition if that is allowed; the record,
marked by `stamp`, and the collection. -/
def write (c : Collection) (stamp : Document → Document) (replacing : Bool)
    (target : Placement) (d : Document) : Except Fault (Document × Collection) := do
  let id ← d.requireId
  let own := c.partitionOf d
  c.checkPartition own target.partitionKey
  match c.position? id own, replacing with
  | some _, false => .error (.itemExists id)
  | some place, true => do
    checkVersion target.version c.records[place]? id
    .ok (stamp d, c.replace place (stamp d))
  | none, true => do
    checkVersion target.version none id
    .ok (stamp d, c.append (stamp d))
  | none, false => .ok (stamp d, c.append (stamp d))

end Collection

namespace Store

/-! ## The store -/

/-- What every write costs. -/
def writeCharge : Binary64 := .ofNat 5

/-- What reading a record costs. -/
def readCharge : Binary64 := .ofNat 1

/-- The store as a write meets it: with the collection, if it may be created. -/
def opened (settings : Settings) (name : String) (s : Store) : Store :=
  if settings.autoCreate then s.withCollection name none else s

/-- Write a record. -/
def write (settings : Settings) (replacing : Bool) (name : String) (d : Document)
    (target : Placement) (s : Store) : Except Fault RecordAnswer × Store :=
  let s := s.opened settings name
  match s.collection? name with
  | none => (.error (.noCollection name), s)
  | some c =>
    match c.write (settings.stamper.stamp s.writes) replacing target d with
    | .error f => (.error f, s)
    | .ok (d, c) => (.ok ⟨some d, writeCharge⟩, { s.put name c with writes := s.writes + 1 })

/-- Write a record that is not there yet. -/
def create (settings : Settings) : String → Document → Placement → Store →
    Except Fault RecordAnswer × Store :=
  write settings false

/-- Write a record, over the one of its id and partition if there is one. -/
def upsert (settings : Settings) : String → Document → Placement → Store →
    Except Fault RecordAnswer × Store :=
  write settings true

/-- Write records without conditions, up to the first that cannot be. -/
def seedRecords (settings : Settings) (name : String) :
    List Document → Nat → Store → Except Fault Nat × Store
  | [], count, s => (.ok count, s)
  | d :: ds, count, s =>
    match s.collection? name with
    | none => (.error (.noCollection name), s)
    | some c =>
      match c.insertNew (settings.stamper.stamp s.writes) d with
      | .error f => (.error f, s)
      | .ok (_, c) =>
        seedRecords settings name ds (count + 1) { s.put name c with writes := s.writes + 1 }

/-- Load records into a collection; their number. -/
def seed (settings : Settings) (name : String) (ds : List Document) (s : Store) :
    Except Fault Nat × Store :=
  let s := s.opened settings name
  match s.collection? name with
  | none => (.error (.noCollection name), s)
  | some _ => seedRecords settings name ds 0 s

/-- Read the record of an id in a partition. -/
def read (name id : String) (key : PartitionKey) (s : Store) : Except Fault RecordAnswer :=
  match s.collection? name with
  | none => .error (.noCollection name)
  | some c =>
    match c.find? id key with
    | none => .error (.noItem id)
    | some d => .ok ⟨some d, readCharge⟩

/-- Delete the record of an id in a partition. -/
def delete (name id : String) (target : Placement) (s : Store) :
    Except Fault RecordAnswer × Store :=
  match s.collection? name with
  | none => (.error (.noCollection name), s)
  | some c =>
    match c.position? id target.partitionKey with
    | none => (.error (.noItem id), s)
    | some place =>
      match checkVersion target.version c.records[place]? id with
      | .error f => (.error f, s)
      | .ok _ => (.ok ⟨none, writeCharge⟩, s.put name (c.erase place))

/-- Create a collection; one that exists stays as it is. -/
def createCollection (properties : CollectionProperties) (s : Store) :
    Except Fault CollectionAnswer × Store :=
  if Text.isBlank properties.name then (.error .blankCollectionName, s)
  else
    match s.collection? properties.name with
    | some c => (.ok ⟨c.properties, readCharge⟩, s)
    | none => (.ok ⟨properties, readCharge⟩, s.put properties.name (.empty properties))

/-- Delete a collection with all its records. -/
def deleteCollection (name : String) (s : Store) : Except Fault CollectionAnswer × Store :=
  match s.collection? name with
  | none => (.error (.noCollection name), s)
  | some c =>
    (.ok ⟨c.properties, writeCharge⟩, { s with collections := s.collections.erase name })

end Store

end DocQuery
