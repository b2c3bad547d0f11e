/-
  What an access to documents can fail with.

  A backend refuses with a status and a text of its own.  Above it only two statuses matter, not
  found and a failed precondition; under any other the backend itself is at fault.  The cause is
  kept in all three, so nothing that a backend says is lost on the way.

  Four of the operations that read take not finding anything as an answer.  Counting is not among
  them, and neither is anything that writes or deletes.

  1. `Operation`: what was attempted, and whether not finding anything is an answer to it;
  2. `AccessError`: the causes, and how they read;
  3. `translate`: the error of an operation that a backend refused.
-/
import DocQuery.Backend
import DocQuery.Entity
import DocQuery.Files
import DocQuery.Json

namespace DocQuery

/-! ## Operations -/

inductive Operation where
  | insert | upsert | findById | find | paginate | exists | count | deleteById | delete
  | createCollection | deleteCollection
deriving DecidableEq, Repr

namespace Operation

/-- Name of an operation in diagnostics. -/
def name : Operation → String
  | insert => "insert"
  | upsert => "upsert"
  | findById => "find_by_id"
  | find => "find"
  | paginate => "paginate"
  | .exists => "exists"
  | count => "count"
  | deleteById => "delete_by_id"
  | delete => "delete"
  | createCollection => "create_collection"
  | deleteCollection => "delete_collection"

/-- What is said of an operation that failed. -/
def description : Operation → String
  | insert => "Failed to insert item"
  | upsert => "Failed to upsert item"
  | findById => "Failed to find item"
  | find => "Failed to find items"
  | paginate => "Failed to query page"
  | .exists => "Failed to check existence"
  | count => "Failed to count items"
  | deleteById => "Failed to delete item"
  | delete => "Failed to delete items by query"
  | createCollection => "Failed to create collection"
  | deleteCollection => "Failed to delete collection"

/-- Whether not finding anything is an answer. -/
def recoversNotFound : Operation → Bool
  | findById | find | paginate | .exists => true
  | _ => false

end Operation

/-! ## Errors -/

/-- Why a configuration could not be read. -/
inductive ConfigurationFault where
  | missingFile (path : String)
  | malformedFile (path : String)
deriving DecidableEq, Repr

def ConfigurationFault.message : ConfigurationFault → String
  | missingFile path => "config file " ++ path ++ " does not exist"
  | malformedFile path => path ++ ": <parse error>"

inductive AccessError where
  | queryCompilation (f : QueryFault)
  | notFound (op : Operation) (cause : BackendError)
  | preconditionFailed (op : Operation) (cause : BackendError)
  | backendExecution (op : Operation) (cause : BackendError)
  | invalidArgument (f : ArgumentFault)
  | mapping (f : MappingFault)
  | json (f : Json.Fault)
  | configuration (f : ConfigurationFault)
  | file (f : FileFault)
deriving DecidableEq, Repr

namespace AccessError

/-- A JSON text that could not be read, by the kind of fault. -/
def jsonMessage : Json.Fault → String
  | .malformed => "Syntax"
  | .mismatch => "Data"
  | .truncated => "Eof"

def message : AccessError → String
  | queryCompilation f => "Query compilation error: " ++ f.message
  | notFound op _ => op.description ++ ": not found"
  | preconditionFailed op _ => op.description ++ ": precondition failed"
  | backendExecution op _ => op.description ++ ": backend error"
  | invalidArgument f => "Invalid argument: " ++ f.message
  | mapping f => "Mapping error: " ++ f.message
  | json f => jsonMessage f
  | configuration f => "Config error: " ++ f.message
  | file f => "I/O error: " ++ f.message

/-- The operation that a backend refused, and why. -/
def refused? : AccessError → Option (Operation × BackendError)
  | notFound op cause | preconditionFailed op cause | backendExecution op cause => some (op, cause)
  | _ => none

/-- The error of an operation that a backend refused, by the status. -/
def translate (op : Operation) (e : BackendError) : AccessError :=
  if e.status = BackendError.notFound then notFound op e
  else if e.status = BackendError.preconditionFailed then preconditionFailed op e
  else backendExecution op e

/-- Take not finding anything as an answer, where the operation allows it. -/
def recover {α : Type} (op : Operation) (empty : α) : Except AccessError α → Except AccessError α
  | .error (notFound at' cause) =>
    if op.recoversNotFound then .ok empty else .error (notFound at' cause)
  | r => r

end AccessError

end DocQuery
