/-
  A store: collections of records in memory.

  A collection keeps its records in order of insertion.  It may be partitioned by a field; a
  record is then known by its id and the partition it lies in, otherwise by its id alone.

  Slashes in a partition path separate like dots, so a path may be written either way.  Version
  tokens and times come from a `Stamper` by the number of the write.  What they are is left open,
  and a statement that needs tokens to differ has that as a hypothesis.

  1. collections, and where a record stands in one;
  2. the store, and what a write is stamped with;
  3. why a store refuses a call.
-/
import DocQuery.Backend
import DocQuery.Dialect.Evaluation

namespace DocQuery

/-! ## Collections -/

/-- Records in order of insertion. -/
structure Collection where
  properties : CollectionProperties
  records : List Document
deriving Repr

namespace Collection

/-- The segments of a partition path: slashes separate like dots, and those in front do not
count. -/
def partitionSegments (path : String) : List String :=
  (Text.pieces (fun c => c == '.' || c == '/') (path.toList.dropWhile (· == '/'))).map
    String.ofList

/-- The partition that a record lies in. -/
def partitionOf (c : Collection) (d : Document) : PartitionKey :=
  match c.properties.partitionPath with
  | some path => .ofField (d.atPath (partitionSegments path))
  | none => .none

def isPartitioned (c : Collection) : Bool :=
  c.properties.partitionPath.isSome

/-- Whether a record is the one of an id in a partition. -/
def isAt (c : Collection) (id : String) (key : PartitionKey) (d : Document) : Bool :=
  d.id? == some id && (!c.isPartitioned || (c.partitionOf d).same key)

/-- The place of the record of an id in a partition. -/
def position? (c : Collection) (id : String) (key : PartitionKey) : Option Nat :=
  c.records.findIdx? (c.isAt id key)

/-- The record of an id in a partition. -/
def find? (c : Collection) (id : String) (key : PartitionKey) : Option Document :=
  c.records.find? (c.isAt id key)

/-- An empty collection. -/
def empty (properties : CollectionProperties) : Collection :=
  ⟨properties, []⟩

def append (c : Collection) (d : Document) : Collection :=
  { c with records := c.records ++ [d] }

def replace (c : Collection) (place : Nat) (d : Document) : Collection :=
  { c with records := c.records.set place d }

def erase (c : Collection) (place : Nat) : Collection :=
  { c with records := c.records.eraseIdx place }

end Collection

/-! ## Stores -/

/-- Collections by name, and how many writes there were. -/
structure Store where
  collections : Fields Collection := []
  writes : Nat := 0
deriving Repr

/-- What the writes are stamped with, by their number. -/
structure Stamper where
  token : Nat → String
  time : Nat → Int64

/-- The stamped record of write `n`: version token and time of write. -/
def Stamper.stamp (s : Stamper) (n : Nat) (d : Document) : Document :=
  (d.insert versionField (.text (s.token n))).insert timestampField (.int64 (s.time n))

namespace Store

/-- Settings that a store keeps for its whole life. -/
structure Settings where
  stamper : Stamper
  /-- the most records in one answer -/
  maxItems : Option Nat := none
  /-- whether the first write to a collection creates it -/
  autoCreate : Bool := false

/-- Request units of a collection that nobody gave any. -/
def defaultUnits : Nat := 400

/-- A collection with default settings. -/
def plainCollection (name : String) (partitionPath : Option String) : Collection :=
  .empty ⟨name, partitionPath, defaultUnits⟩

def collection? (s : Store) (name : String) : Option Collection :=
  s.collections.get? name

/-- Put a collection in place of the one of its name, or add it. -/
def put (s : Store) (name : String) (c : Collection) : Store :=
  { s with collections := s.collections.insert name c }

/-- The store with a collection of that name; an existing one stays as it is. -/
def withCollection (s : Store) (name : String) (partitionPath : Option String) : Store :=
  match s.collection? name with
  | some _ => s
  | none => s.put name (plainCollection name partitionPath)

/-- The records of a collection, in order of insertion. -/
def records (s : Store) (name : String) : List Document :=
  ((s.collection? name).map Collection.records).getD []

/-! ## Faults -/

/-- Why a store refuses a call. -/
inductive Fault where
  | noCollection (name : String)
  | blankCollectionName
  | noItem (id : String)
  | itemExists (id : String)
  /-- a record without an id of text, or with an empty one -/
  | noId
  | otherPartition (given own : PartitionKey)
  /-- the stored record has another version than asked for -/
  | stale (id version : String)
  /-- no record, or one without a version, where a version was asked for -/
  | vanished (id version : String)
  | badText (f : Dialect.Fault)
  | unbound (u : Dialect.Unbound)
  | manyPartitions
  | badContinuation (token : String)
deriving Repr

def Fault.status : Fault → Nat
  | noCollection _ | noItem _ => BackendError.notFound
  | itemExists _ => BackendError.conflict
  | stale _ _ | vanished _ _ => BackendError.preconditionFailed
  | _ => BackendError.badRequest

def Fault.message : Fault → String
  | noCollection name => "collection '" ++ name ++ "' does not exist"
  | blankCollectionName => "collection name is empty"
  | noItem id => "item '" ++ id ++ "' does not exist"
  | itemExists id => "item '" ++ id ++ "' already exists"
  | noId => "record is missing a string '" ++ idField ++ "'"
  | otherPartition given own =>
    "partition key " ++ given.display ++ " does not match the record's " ++ own.display
  | stale id version => "item '" ++ id ++ "' was modified; version " ++ version ++ " is stale"
  | vanished id version => "item '" ++ id ++ "' no longer exists at version " ++ version
  | badText f => f.message
  | unbound u => u.message
  | manyPartitions =>
    "cross partition query is required but disabled; set enable_cross_partition"
  | badContinuation token => "malformed continuation token '" ++ token ++ "'"

def Fault.error (f : Fault) : BackendError :=
  ⟨f.status, f.message, none⟩

end Store

end DocQuery
