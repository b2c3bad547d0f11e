/-
  Writing and deleting entities, and their collections.

  A record goes to the partition that its own field names, unless another is given, and an
  entity of a versioned type that carries a version token is only written over that version.

  `delete` goes through its matches twice.  In the first pass all of them get a place and are
  read as entities, and whatever goes wrong there leaves the store as it was.  Only the second
  pass deletes, one record after the other; a fault in the middle of it leaves the records behind
  it where they are.
-/
import DocQuery.Client.Placement
import DocQuery.Client.Read

namespace DocQuery.Client

variable {σ α : Type}

/-! ## Writing -/

/-- How a write treats a record that is there already. -/
inductive WriteMode where
  | insert | upsert
deriving DecidableEq, Repr

def WriteMode.operation : WriteMode → Operation
  | insert => .insert
  | upsert => .upsert

/-- The call of a backend that writes. -/
def WriteMode.call (m : WriteMode) (b : Backend σ) :
    String → Document → Placement → BackendCall σ RecordAnswer :=
  match m with
  | insert => b.create
  | upsert => b.upsert

/-- Write an entity to a collection; the entity as it is stored. -/
def writeInto (c : Client σ) (e : EntityType α) (mode : WriteMode) (collection : String)
    (a : α) (key : Option PartitionKey) : Access σ α := do
  Access.checked (requireText "collection name" collection)
  let m ← metadata e.toEntityDeclaration
  let record ← Access.mapped (e.write a)
  let _ ← Access.checked record.entityId
  let target ← Access.checked (m.placement record key)
  let response ← c.call mode.operation collection RecordAnswer.observed
    (mode.call c.backend collection record target)
  Access.mapped (e.read (response.record.getD record))

/-- Write an entity to the collection of its type. -/
def write (c : Client σ) (e : EntityType α) (mode : WriteMode) (a : α)
    (key : Option PartitionKey) : Access σ α := do
  let collection ← collectionName e.toEntityDeclaration
  c.writeInto e mode collection a key

/-! ## Deleting -/

/-- Delete a record by its id, outside any partition unless one is given. -/
def deleteById (c : Client σ) (collection id : String) (key : Option PartitionKey) :
    Access σ Unit := do
  Access.checked (requireText "collection name" collection)
  Access.checked (requireText "id" id)
  let _ ← c.call .deleteById collection RecordAnswer.observed
    (c.backend.delete collection id ⟨key.getD .none, none⟩)

/-- Delete the record of an entity. -/
def deleteEntity (c : Client σ) (e : EntityType α) (a : α) (key : Option PartitionKey) :
    Access σ Unit := do
  let m ← metadata e.toEntityDeclaration
  let record ← Access.mapped (e.write a)
  let id ← Access.checked record.entityId
  let target ← Access.checked (m.placement record key)
  let _ ← c.call .deleteById m.collection RecordAnswer.observed
    (c.backend.delete m.collection id target)

/-- Where the records of a collection are to be deleted. -/
def planned (m : Metadata) (collection : String) :
    List Document → Access σ (List (String × Placement))
  | [] => pure []
  | d :: ds => do
    match d.id? with
    | none => throw (.mapping (.noId collection))
    | some id => do
      let target ← Access.checked (m.placement d none)
      let rest ← planned m collection ds
      pure ((id, target) :: rest)

/-- Delete records one by one, up to the first that cannot be. -/
def deleteEach (c : Client σ) (collection : String) :
    List (String × Placement) → Access σ Unit
  | [] => pure ()
  | (id, target) :: rest => do
    let _ ← c.call .delete collection RecordAnswer.observed
      (c.backend.delete collection id target)
    deleteEach c collection rest

/-- Delete what matches a query; the deleted entities.  Nothing is deleted before all matches
are known to be entities with a place. -/
def delete (c : Client σ) (e : EntityType α) (collection : String) (q : Query) :
    Access σ (List α) := do
  Access.checked (requireText "collection name" collection)
  let m ← metadata e.toEntityDeclaration
  let statement ← Access.compiled (Statement.ofQuery .find q)
  let records ← c.queryAll .find collection statement (fansOut m q)
  let plan ← planned m collection records
  let entities ← Access.mapEach e.read records
  c.deleteEach collection plan
  pure entities

/-- Delete all entities of a collection. -/
def deleteAll (c : Client σ) (e : EntityType α) (collection : String) : Access σ (List α) :=
  c.delete e collection { criteria := .all }

/-! ## Collections -/

/-- Create the collection of some entities, unless it exists. -/
def createCollection (c : Client σ) (m : Metadata) :
    Access σ CollectionProperties := do
  let response ← c.call .createCollection m.collection CollectionAnswer.observed
    (c.backend.createCollection m.properties)
  pure response.properties

/-- Create the collection of an entity type, unless it exists. -/
def createCollectionFor (c : Client σ) (d : EntityDeclaration) :
    Access σ CollectionProperties := do
  let m ← metadata d
  c.createCollection m

/-- Delete a collection. -/
def deleteCollection (c : Client σ) (collection : String) : Access σ Unit := do
  Access.checked (requireText "collection name" collection)
  let _ ← c.call .deleteCollection collection CollectionAnswer.observed
    (c.backend.deleteCollection collection)

end DocQuery.Client
