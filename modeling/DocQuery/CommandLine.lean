/-
  The program: compile a filter, or query a file of records.

  It reads files and variables through look-up functions and gives the lines to print, so the
  whole of it is a function of its arguments, the files and the environment.
-/
import DocQuery.CommandLine.Arguments
import DocQuery.Configuration
import DocQuery.Filter
import DocQuery.Store.Backend
import DocQuery.Client.Read

namespace DocQuery.CommandLine

/-- What the program finds around it. -/
structure Surroundings where
  file : String → Except FileFault String
  environment? : String → Option String
  stamper : Stamper

/-- How a run ends. -/
inductive Outcome where
  /-- the arguments are no request -/
  | usage (u : Usage)
  | finished (lines : List String)
  | failed (e : AccessError)

/-! ## Queries -/

/-- Read criteria from the text of a filter. -/
def criteriaOf (filter : String) : Except AccessError Criteria := do
  let f ← (Filter.ofText filter).mapError .json
  f.toCriteria.mapError .queryCompilation

/-- Read a query from the texts of a filter and a sort. -/
def queryOf (filter : String) (sort : Option String) : Except AccessError Query := do
  let criteria ← criteriaOf filter
  let sort ← match sort with
    | none => .ok []
    | some s => (SortKey.ofText s).mapError .invalidArgument
  .ok { criteria, sort }

/-! ## Loading records -/

/-- The lines of a text. -/
def linesOf (s : String) : List String :=
  Text.split (· == '\n') s

/-- Read the lines of a file as records; blank lines do not count, but are numbered. -/
def recordsOf : Nat → List String → Except AccessError (List Document)
  | _, [] => .ok []
  | n, line :: rest =>
    if Text.isBlank line then recordsOf (n + 1) rest
    else do
      let j ← (Json.read line).mapError .json
      let d ← (Value.loadRecord j).mapError fun f => .mapping (.badLine n f)
      let ds ← recordsOf (n + 1) rest
      .ok (d :: ds)

/-- A line without the carriage return at its end. -/
def withoutReturn (line : String) : String :=
  let cs := line.toList
  if cs.getLast? = some '\x0d' then String.ofList cs.dropLast else line

/-- The lines of a file.  Before a line feed, and only there, a carriage return is a part of the
end of the line. -/
def fileLines : List String → List String
  | [] => []
  | [last] => [last]
  | line :: rest => withoutReturn line :: fileLines rest

/-- The records of a file, one on a line. -/
def loadRecords (s : Surroundings) (path : String) : Except AccessError (List Document) := do
  let text ← (s.file path).mapError .file
  recordsOf 1 (fileLines (linesOf text))

/-! ## Answers -/

/-- A statement for people. -/
def statementJson (s : Statement) (fansOut : Bool) : Json :=
  .obj [("text", .str s.text),
    ("parameters", .arr (s.parameters.map fun p =>
      .obj [("name", .str p.1), ("value", p.2.toJson)])),
    ("cross_partition", .bool fansOut)]

/-- A record for people. -/
def recordJson (d : Document) : Json :=
  (Value.doc d).toRelaxed

/-- A page for people. -/
def pageJson (p : Page Document) : Json :=
  .obj [("size", .int p.size), ("total_elements", .int p.totalElements),
    ("total_pages", .int p.totalPages),
    ("continuation", match p.continuation with
      | none => .null
      | some t => .str t),
    ("content", .arr (p.content.map recordJson))]

/-! ## Requests -/

/-- Compile a filter. -/
def compile (r : CompileRequest) : Except AccessError (List String) := do
  let q ← queryOf r.filter r.sort
  let s ← (Statement.ofQuery (if r.count then .count else .find) q).mapError .queryCompilation
  .ok (linesOf (statementJson s (q.isCrossPartition r.partitionKey.toList)).pretty)

/-- The page that a request asks for. -/
def pageOf (size : Nat) (continuation : Option String) : PageState :=
  { PageState.first size with continuation }

/-- The type of the records that are queried. -/
def recordType : EntityType Document :=
  .records { name := "record" }

/-- Ask a loaded store. -/
def ask (client : Client Store) (r : QueryRequest) (q : Query) : Access Store (List String) :=
  if r.count then do
    let n ← client.count recordType r.collection q
    pure [Text.ofNat n]
  else
    match r.pageSize with
    | some size => do
      let page ← client.paginate recordType r.collection
        { q with page := some (pageOf size r.continuation) }
      pure (linesOf (pageJson page).pretty)
    | none => do
      let ds ← client.find recordType r.collection q
      pure (ds.map fun d => (recordJson d).compact)

/-- Load a file and query it. -/
def query (s : Surroundings) (c : Configuration) (r : QueryRequest) :
    Except AccessError (List String) := do
  let rules : Store.Settings := { stamper := s.stamper, maxItems := r.maxPerResponse }
  let start := Store.withCollection {} r.collection r.partitionKey
  let ds ← loadRecords s r.file
  let (loaded, store) := Store.seed rules r.collection ds start
  let _ ← loaded.mapError fun f => AccessError.translate .insert f.error
  let client ← (Client.make (Store.backend rules) c.database c.metrics).mapError .invalidArgument
  let q ← queryOf r.filter r.sort
  ((ask client r q).run { backend := store }).1

/-- Do what is asked for. -/
def perform (s : Surroundings) (i : Invocation) : Except AccessError (List String) := do
  let c ← Configuration.load s.file s.environment? i.configuration
  match i.request with
  | .compile r => compile r
  | .query r => query s c r

/-- Run the program. -/
def run (s : Surroundings) (args : List String) : Outcome :=
  match Invocation.ofArguments args with
  | .error u => .usage u
  | .ok i =>
    match perform s i with
    | .ok lines => .finished lines
    | .error e => .failed e

end DocQuery.CommandLine
