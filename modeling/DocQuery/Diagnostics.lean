/-
  Diagnostics: one report for every call of a backend.

  A report says what was asked of which collection, how it ended and what it cost.  A call that
  was refused has cost nothing and has no records; its status and its text are those of the
  backend, whatever becomes of them in the error of the operation.
-/
import DocQuery.AccessError

namespace DocQuery

/-- What a report takes from an answer. -/
structure Observation where
  charge : Binary64
  items : Nat
  hasContinuation : Bool := false
  metrics : Option QueryMetrics := none
deriving Repr

def QueryAnswer.observed (r : QueryAnswer) : Observation :=
  ⟨r.charge, r.records.length, r.continuation.isSome, r.metrics⟩

def RecordAnswer.observed (r : RecordAnswer) : Observation where
  charge := r.charge
  items := r.record.toList.length

def CollectionAnswer.observed (r : CollectionAnswer) : Observation where
  charge := r.charge
  items := 0

/-- How much a report matters. -/
inductive LogLevel where
  | off | error | warn | info | debug | trace
deriving DecidableEq, Repr

namespace LogLevel

def name : LogLevel → String
  | off => "OFF"
  | error => "ERROR"
  | warn => "WARN"
  | info => "INFO"
  | debug => "DEBUG"
  | trace => "TRACE"

/-- The level that a word names, in any case; `info` for any other word, and for none. -/
def ofText (s : Option String) : LogLevel :=
  match s.map Text.lower with
  | some "off" => off
  | some "error" => error
  | some "warn" => warn
  | some "debug" => debug
  | some "trace" => trace
  | _ => info

end LogLevel

/-- The report of a call. -/
structure Diagnostic where
  database : String
  operation : Operation
  collection : String
  status : Nat
  observation : Observation
  error : Option String
deriving Repr

namespace Diagnostic

/-- The report of a call that was answered. -/
def success (database : String) (op : Operation) (collection : String) (o : Observation) :
    Diagnostic :=
  ⟨database, op, collection, 200, o, none⟩

/-- The report of a call that was refused. -/
def failure (database : String) (op : Operation) (collection : String) (e : BackendError) :
    Diagnostic :=
  ⟨database, op, collection, e.status, ⟨.zero false, 0, false, none⟩, some e.message⟩

def isFailure (d : Diagnostic) : Bool := d.error.isSome

/-- The level of the line that a log gets. -/
def level (d : Diagnostic) : LogLevel :=
  if d.isFailure then .warn else .info

end Diagnostic

end DocQuery
