/-
  Backends: what keeps collections of records and answers queries about them.

  A backend is a set of functions on a state of its own.  Every call gives an answer or a fault
  with a status, and the next state.

  Accesses are built on these functions and on nothing else, so what holds of an access for every
  backend is stated for a variable one.  A backend sees criteria only as a statement, which is
  text and values.  `rounds` is no call: it says how many answers a chain of continuations can
  have, and an access follows a chain no further.

  1. what calls carry and what answers hold;
  2. faults;
  3. the functions of a backend.
-/
import DocQuery.Record
import DocQuery.Statement

namespace DocQuery

/-! ## Requests -/

/-- How a query is to be answered. -/
structure QueryOptions where
  /-- whether matches may lie in several partitions -/
  crossPartition : Bool := false
  /-- records wanted in one answer -/
  maxItems : Option Nat := none
  /-- where to go on -/
  continuation : Option String := none
  /-- whether to count what the query went through -/
  metrics : Bool := false
deriving DecidableEq, Repr

/-- Where a record lies, and the version it has to have. -/
structure Placement where
  partitionKey : PartitionKey := .none
  version : Option String := none
deriving Repr

/-- The settings of a collection. -/
structure CollectionProperties where
  name : String
  /-- the field that the partition key is taken from -/
  partitionPath : Option String
  requestUnits : Nat
deriving DecidableEq, Repr

/-! ## Answers -/

/-- What a query went through. -/
structure QueryMetrics where
  retrieved : Nat
  output : Nat
deriving DecidableEq, Repr

/-- Records, and where to go on if there are more. -/
structure QueryAnswer where
  records : List Document := []
  continuation : Option String := none
  charge : Binary64 := .zero false
  metrics : Option QueryMetrics := none
deriving Repr

/-- The record that was read or written. -/
structure RecordAnswer where
  record : Option Document
  charge : Binary64
deriving Repr

structure CollectionAnswer where
  properties : CollectionProperties
  charge : Binary64
deriving Repr

/-! ## Faults -/

/-- Why a backend did not do what it was asked for. -/
structure BackendError where
  status : Nat
  message : String
  /-- milliseconds after which another try makes sense -/
  retryAfter : Option Nat := none
deriving DecidableEq, Repr

namespace BackendError

def badRequest : Nat := 400
def notFound : Nat := 404
def conflict : Nat := 409
def preconditionFailed : Nat := 412
def internal : Nat := 500

/-- Status and message in one text. -/
def text (e : BackendError) : String :=
  "status " ++ Text.ofNat e.status ++ ": " ++ e.message

end BackendError

/-! ## Backends -/

/-- A call of a backend with states `σ`. -/
abbrev BackendCall (σ ρ : Type) := StateM σ (Except BackendError ρ)

/-- A backend with states `σ`.  Collections are addressed by name, records by id. -/
structure Backend (σ : Type) where
  query : String → Statement → QueryOptions → BackendCall σ QueryAnswer
  create : String → Document → Placement → BackendCall σ RecordAnswer
  upsert : String → Document → Placement → BackendCall σ RecordAnswer
  read : String → String → PartitionKey → BackendCall σ RecordAnswer
  delete : String → String → Placement → BackendCall σ RecordAnswer
  createCollection : CollectionProperties → BackendCall σ CollectionAnswer
  deleteCollection : String → BackendCall σ CollectionAnswer
  /-- answers after which every chain of continuations that begins now has come to its end -/
  rounds : σ → Nat

end DocQuery
