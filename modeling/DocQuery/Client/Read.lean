/-
  Reading entities.

  Queries follow continuations until there are none.  Where nothing is found because there is
  no such record or collection, the answer is empty.

  What can be refused without the backend is refused first: names and ids, then the metadata,
  then the statement.  Such a request has made no call.  `follow` recurs on the number of answers
  that the backend can give in one chain, and takes what it has when that number is used up.
  Recovery is part of each round, so a collection that is lost in the middle ends the chain with
  what was found before.
-/
import DocQuery.Client
import DocQuery.Value.Structure

namespace DocQuery.Client

variable {σ α : Type}

/-! ## Queries -/

/-- Whether a query about entities fans out over all partitions. -/
def fansOut (m : Metadata) (q : Query) : Bool :=
  q.isCrossPartition m.partitionFields

/-- The records of a query from one answer to the next, at most `rounds` of them. -/
def follow (c : Client σ) (op : Operation) (collection : String) (statement : Statement) :
    Nat → QueryOptions → Access σ (List Document)
  | 0, _ => pure []
  | rounds + 1, options => do
    let answer ← Access.attempt (c.query op collection statement options)
    let response ← ExceptT.mk (pure (AccessError.recover op {} answer))
    match response.continuation with
    | none => pure response.records
    | some token => do
      let rest ← follow c op collection statement rounds
        { options with continuation := some token }
      pure (response.records ++ rest)

/-- All records of a query. -/
def queryAll (c : Client σ) (op : Operation) (collection : String) (statement : Statement)
    (fansOut : Bool) : Access σ (List Document) := do
  let rounds ← modifyGet fun s => (c.backend.rounds s.backend, s)
  c.follow op collection statement rounds { crossPartition := fansOut, metrics := c.metrics }

/-! ## Finding -/

/-- All entities that match a query. -/
def find (c : Client σ) (e : EntityType α) (collection : String) (q : Query) :
    Access σ (List α) := do
  Access.checked (requireText "collection name" collection)
  let m ← metadata e.toEntityDeclaration
  let statement ← Access.compiled (Statement.ofQuery .find q)
  let records ← c.queryAll .find collection statement (fansOut m q)
  Access.mapEach e.read records

/-- All entities of a collection. -/
def findAllIn (c : Client σ) (e : EntityType α) (collection : String) : Access σ (List α) :=
  c.find e collection { criteria := .all }

/-- All entities of a type. -/
def findAll (c : Client σ) (e : EntityType α) : Access σ (List α) := do
  let collection ← collectionName e.toEntityDeclaration
  c.findAllIn e collection

/-- The entities with some ids; without ids nothing is asked. -/
def findByIds (c : Client σ) (e : EntityType α) (collection : String) (ids : List String) :
    Access σ (List α) := do
  Access.checked (requireText "collection name" collection)
  if ids.isEmpty then pure []
  else c.find e collection { criteria := .oneOf idField (ids.map .text) }

/-- The entity with an id, looked for in all partitions of a collection. -/
def findByIdIn (c : Client σ) (e : EntityType α) (collection id : String) :
    Access σ (Option α) := do
  Access.checked (requireText "collection name" collection)
  Access.checked (requireText "id" id)
  let statement ← Access.compiled
    (Statement.ofQuery .find { criteria := .compare .eq idField (.text id) })
  let records ← c.queryAll .findById collection statement true
  match records with
  | [] => pure none
  | d :: _ => do
    let a ← Access.mapped (e.read d)
    pure (some a)

/-- The entity with an id, read from a partition or else looked for in all. -/
def findById (c : Client σ) (e : EntityType α) (id : String) (key : Option PartitionKey) :
    Access σ (Option α) := do
  Access.checked (requireText "id" id)
  let collection ← collectionName e.toEntityDeclaration
  match key with
  | none => c.findByIdIn e collection id
  | some key => do
    let answer ← Access.attempt
      (c.call .findById collection RecordAnswer.observed (c.backend.read collection id key))
    let record ← ExceptT.mk
      (pure (AccessError.recover .findById none (answer.map RecordAnswer.record)))
    match record with
    | none => pure none
    | some d => do
      let a ← Access.mapped (e.read d)
      pure (some a)

/-- Whether any entity matches a query. -/
def exists? (c : Client σ) (e : EntityType α) (collection : String) (q : Query) :
    Access σ Bool := do
  Access.checked (requireText "collection name" collection)
  let m ← metadata e.toEntityDeclaration
  let statement ← Access.compiled (Statement.ofQuery .find q)
  let answer ← Access.attempt (c.query .exists collection statement
    { crossPartition := fansOut m q, maxItems := some 1, metrics := c.metrics })
  ExceptT.mk (pure (AccessError.recover .exists false
    (answer.map fun r => !r.records.isEmpty)))

/-! ## Counting -/

/-- The number that a count delivers; it must be an integer that is not negative. -/
def countOf (r : QueryAnswer) : Except AccessError Nat :=
  let v := r.records.head?.bind fun d => d.get? Statement.countAlias
  match v.bind Value.int? with
  | some (.ofNat n) => .ok n
  | _ =>
    .error (.backendExecution .count ⟨BackendError.internal,
      "count result has no integer '" ++ Statement.countAlias ++ "' value: " ++ structuralOption v,
      none⟩)

/-- Run a statement that counts. -/
def countStatement (c : Client σ) (collection : String) (statement : Statement)
    (fansOut : Bool) : Access σ Nat := do
  let response ← c.query .count collection statement
    { crossPartition := fansOut, metrics := c.metrics }
  ExceptT.mk (pure (countOf response))

/-- The number of records in a collection. -/
def countAll (c : Client σ) (collection : String) : Access σ Nat := do
  Access.checked (requireText "collection name" collection)
  let statement ← Access.compiled (Statement.ofQuery .count { criteria := .all })
  c.countStatement collection statement true

/-- The number of entities that match a query. -/
def count (c : Client σ) (e : EntityType α) (collection : String) (q : Query) :
    Access σ Nat := do
  Access.checked (requireText "collection name" collection)
  let m ← metadata e.toEntityDeclaration
  let statement ← Access.compiled (Statement.ofQuery .count q)
  c.countStatement collection statement (fansOut m q)

/-! ## Pages -/

/-- The page state of a query that asks for a page. -/
def requestedPage (q : Query) : Except ArgumentFault PageState :=
  match q.page with
  | none => .error .noPageState
  | some s => if s.size = 0 then .error .zeroPageSize else .ok s

/-- The page that the page state of a query asks for.  An empty first page needs no count. -/
def paginate (c : Client σ) (e : EntityType α) (collection : String) (q : Query) :
    Access σ (Page α) := do
  Access.checked (requireText "collection name" collection)
  let state ← Access.checked (requestedPage q)
  let m ← metadata e.toEntityDeclaration
  let finding ← Access.compiled (Statement.ofQuery .find q)
  let counting ← Access.compiled (Statement.ofQuery .count q)
  let answer ← Access.attempt (c.query .paginate collection finding
    { crossPartition := fansOut m q, maxItems := some state.size,
      continuation := state.continuation, metrics := c.metrics })
  let response ← ExceptT.mk (pure (AccessError.recover .paginate {} answer))
  let content ← Access.mapEach e.read (response.records.take state.size)
  let total ←
    if content.isEmpty && response.continuation.isNone && state.continuation.isNone then pure 0
    else c.countStatement collection counting (fansOut m q)
  pure ⟨content, state, response.continuation, total⟩

/-- A page of a whole collection. -/
def findAllPaged (c : Client σ) (e : EntityType α) (collection : String) (s : PageState) :
    Access σ (Page α) :=
  c.paginate e collection { criteria := .all, page := some s }

end DocQuery.Client
