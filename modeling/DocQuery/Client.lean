/-
  Access to documents through any backend.

  A step of an access is a function of the session: the state of the backend, what is known about
  entity types, and the reports so far.  A step that fails leaves a session all the same, so what
  was reported, and what a refused call has changed, is not lost.  Only `call` makes a backend do
  anything, so there is one report for each call, whatever an operation is made of.

  1. `Client` and `Session`: the settings of an access, and what changes in its course;
  2. `call`: a call of the backend, reported and translated;
  3. looking up the metadata of an entity type.
-/
import DocQuery.Diagnostics
import DocQuery.Metadata

namespace DocQuery

/-- A client of a backend: the database that reports name, and whether queries are measured. -/
structure Client (σ : Type) where
  backend : Backend σ
  database : String
  metrics : Bool

/-- What changes in the course of an access. -/
structure Session (σ : Type) where
  backend : σ
  cache : MetadataCache := {}
  /-- one report for each call of the backend, in order -/
  diagnostics : List Diagnostic := []

/-- A step of an access: a result or an error, and the next session. -/
abbrev Access (σ α : Type) := ExceptT AccessError (StateM (Session σ)) α

namespace Access

variable {σ α : Type}

/-- Refuse an argument. -/
def checked : Except ArgumentFault α → Access σ α
  | .ok a => pure a
  | .error f => throw (.invalidArgument f)

/-- Take the result of compiling a query. -/
def compiled : Except QueryFault α → Access σ α
  | .ok a => pure a
  | .error f => throw (.queryCompilation f)

/-- Take the result of mapping an entity or a record. -/
def mapped : Except MappingFault α → Access σ α
  | .ok a => pure a
  | .error f => throw (.mapping f)

/-- The result of a step, be it an error, as a value. -/
def attempt (x : Access σ α) : Access σ (Except AccessError α) :=
  ExceptT.lift x.run

/-- Read records as entities, up to the first that is none. -/
def mapEach (read : Document → Except MappingFault α) : List Document → Access σ (List α)
  | [] => pure []
  | d :: ds => do
    let a ← mapped (read d)
    let rest ← mapEach read ds
    pure (a :: rest)

end Access

namespace Client

variable {σ ρ : Type}

/-- A client, if the database has a name. -/
def make (backend : Backend σ) (database : String) (metrics : Bool) :
    Except ArgumentFault (Client σ) := do
  requireText "database name" database
  .ok ⟨backend, database, metrics⟩

/-- The report of a call. -/
def report (c : Client σ) (op : Operation) (collection : String) (observe : ρ → Observation) :
    Except BackendError ρ → Diagnostic
  | .ok r => .success c.database op collection (observe r)
  | .error e => .failure c.database op collection e

/-- Call the backend, report the call, and translate a fault. -/
def call (c : Client σ) (op : Operation) (collection : String) (observe : ρ → Observation)
    (f : BackendCall σ ρ) : Access σ ρ := fun s =>
  let (answer, backend) := f s.backend
  (answer.mapError (AccessError.translate op),
    { s with backend, diagnostics := s.diagnostics ++ [c.report op collection observe answer] })

/-- The metadata of an entity type. -/
def metadata (d : EntityDeclaration) : Access σ Metadata := fun s =>
  let (found, cache) := s.cache.get d
  (found.mapError .invalidArgument, { s with cache })

/-- The collection of an entity type. -/
def collectionName (d : EntityDeclaration) : Access σ String := do
  let m ← metadata d
  pure m.collection

/-- Query the backend. -/
def query (c : Client σ) (op : Operation) (collection : String) (statement : Statement)
    (options : QueryOptions) : Access σ QueryAnswer :=
  c.call op collection QueryAnswer.observed (c.backend.query collection statement options)

end Client

end DocQuery
