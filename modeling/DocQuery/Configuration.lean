/-
  The configuration of an access.

  Files are consulted in order: the one asked for, the one that the environment names, and the
  one in the current directory.  The first file that sets a key wins, and the environment wins
  over all files.

  1. `Partial`: what one file sets;
  2. `Configuration`: the outcome, with defaults;
  3. `load`, over any way of looking up files and variables.
-/
import DocQuery.AccessError
import DocQuery.Configuration.Toml

namespace DocQuery

/-- Settings that a client and its log are made from. -/
structure Configuration where
  database : String := "nexus"
  /-- whether queries are measured -/
  metrics : Bool := false
  logDirectory : Option String := none
  logLevel : Option String := none
  logRetention : Option Nat := none
deriving DecidableEq, Repr

namespace Configuration

/-! ## Files -/

/-- What a file sets. -/
structure Partial where
  database : Option String := none
  metrics : Option Bool := none
  logDirectory : Option String := none
  logLevel : Option String := none
  logRetention : Option Nat := none
deriving DecidableEq, Repr

namespace Partial

/-- The largest number of log files. -/
def maxRetention : Nat := UInt64.size - 1

/-- Set a key; none if it is unknown or holds another type. -/
def set (p : Partial) : String × Toml.Scalar → Option Partial
  | ("database_name", .text s) => some { p with database := some s }
  | ("populate_query_metrics", .bool b) => some { p with metrics := some b }
  | ("log_dir", .text s) => some { p with logDirectory := some s }
  | ("log_level", .text s) => some { p with logLevel := some s }
  | ("log_retention", .int n) =>
    if 0 ≤ n ∧ n ≤ maxRetention then some { p with logRetention := some n.toNat } else none
  | _ => none

/-- Read the text of a file. -/
def ofText? (s : String) : Option Partial := do
  let assignments ← Toml.ofText? s
  assignments.foldlM set {}

/-- Fill in what `p` leaves open. -/
def orElse (p q : Partial) : Partial where
  database := p.database.or q.database
  metrics := p.metrics.or q.metrics
  logDirectory := p.logDirectory.or q.logDirectory
  logLevel := p.logLevel.or q.logLevel
  logRetention := p.logRetention.or q.logRetention

end Partial

/-! ## The environment -/

/-- The variable that names a file. -/
def fileVariable : String := "NEXUS_ACCESS_CONFIG"

/-- The variable that names the database. -/
def databaseVariable : String := "NEXUS_ACCESS_DATABASE"

/-- The variable that says whether queries are measured. -/
def metricsVariable : String := "NEXUS_ACCESS_QUERY_METRICS"

/-- The file in the current directory. -/
def defaultFile : String := "nexus-access.toml"

/-- Whether a word means yes, in any case. -/
def isYes (s : String) : Bool :=
  ["1", "true", "yes", "on"].contains (Text.lower (Text.trim s))

/-! ## Loading -/

/-- The files to consult, in order. -/
def paths (environment? : String → Option String) (explicit : Option String) : List String :=
  explicit.toList ++ (environment? fileVariable).toList ++ [defaultFile]

/-- What some files set together; those that do not exist are passed over. -/
def consult (file : String → Except FileFault String) :
    List String → Partial → Except AccessError Partial
  | [], p => .ok p
  | path :: rest, p =>
    match file path with
    | .error f => if f.isPresent then .error (.file f) else consult file rest p
    | .ok text =>
      match Partial.ofText? text with
      | none => .error (.configuration (.malformedFile path))
      | some q => consult file rest (p.orElse q)

/-- A file that is asked for must exist. -/
def requireFile (file : String → Except FileFault String) (path : String) :
    Except AccessError Unit :=
  match file path with
  | .ok _ => .ok ()
  | .error f => if f.isPresent then .ok () else .error (.configuration (.missingFile path))

/-- The outcome of what the files set and what the environment says. -/
def complete (environment? : String → Option String) (p : Partial) : Configuration where
  database := ((environment? databaseVariable).or p.database).getD "nexus"
  metrics := (((environment? metricsVariable).map isYes).or p.metrics).getD false
  logDirectory := p.logDirectory
  logLevel := p.logLevel
  logRetention := p.logRetention

/-- Load the configuration. -/
def load (file : String → Except FileFault String) (environment? : String → Option String)
    (explicit : Option String) : Except AccessError Configuration := do
  explicit.forM (requireFile file)
  let p ← consult file (paths environment? explicit) {}
  let c := complete environment? p
  (requireText "database name" c.database).mapError .invalidArgument
  .ok c

end Configuration

end DocQuery
