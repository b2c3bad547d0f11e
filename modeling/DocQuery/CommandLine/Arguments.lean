/-
  Arguments of the command line.

  A command has options, of which some take a value, and perhaps one plain argument.  The value
  of an option stands behind an equals sign or is the next argument, unless that looks like an
  option itself.  Everything behind `--` is plain.  A value is checked when the next option or
  argument begins, so an unknown option is reported before a bad value in front of it.

  1. `Usage`: why arguments are no request;
  2. `Grammar`: the options of a command;
  3. reading the arguments of one command;
  4. `Request`: what the program is asked to do.
-/
import DocQuery.Fields
import DocQuery.Text.Digits

namespace DocQuery.CommandLine

/-- Why arguments are no request. -/
inductive Usage where
  | unknownArgument | invalidSubcommand | missingSubcommand | missingRequiredArgument
  | invalidValue | valueValidation | tooManyValues | argumentConflict
  | displayHelp | displayVersion | displayHelpOnMissingArgumentOrSubcommand
deriving DecidableEq, Repr

namespace Usage

def name : Usage → String
  | unknownArgument => "UnknownArgument"
  | invalidSubcommand => "InvalidSubcommand"
  | missingSubcommand => "MissingSubcommand"
  | missingRequiredArgument => "MissingRequiredArgument"
  | invalidValue => "InvalidValue"
  | valueValidation => "ValueValidation"
  | tooManyValues => "TooManyValues"
  | argumentConflict => "ArgumentConflict"
  | displayHelp => "DisplayHelp"
  | displayVersion => "DisplayVersion"
  | displayHelpOnMissingArgumentOrSubcommand => "DisplayHelpOnMissingArgumentOrSubcommand"

/-- The exit code: help and version that were asked for are no failure. -/
def exitCode : Usage → Nat
  | displayHelp | displayVersion => 0
  | _ => 2

end Usage

/-! ## Grammars -/

/-- What an argument holds. -/
inductive ValueKind where
  | text
  /-- text that is not empty -/
  | path
  /-- a number of 64 bits without sign -/
  | number
deriving DecidableEq, Repr

/-- An option: a flag, a request for help or for the version, or a name for a value. -/
inductive OptionKind where
  | flag | help | version
  | value (k : ValueKind)
deriving DecidableEq, Repr

/-- The arguments of a command. -/
structure Grammar where
  /-- options by their long names -/
  long : Fields OptionKind
  /-- options by their letters -/
  short : List (Char × OptionKind)
  /-- the name of the plain argument, if there is one; it is a path -/
  positional : Option String := none
  /-- commands inside this one -/
  subcommands : List String := []

/-- The largest number. -/
def maxNumber : Nat := UInt64.size - 1

/-- Check a value. -/
def ValueKind.check (k : ValueKind) (v : String) : Except Usage Unit :=
  match k with
  | .text => .ok ()
  | .path => if v.isEmpty then .error .invalidValue else .ok ()
  | .number =>
    if (Text.readNat maxNumber v.toList).isSome then .ok () else .error .valueValidation

/-! ## Reading -/

/-- An option or plain argument whose value has not been checked; an option may still wait for
its value. -/
structure Pending where
  name : String
  kind : ValueKind
  value : Option String
deriving Repr

/-- The arguments read so far. -/
structure Reading where
  values : Fields String := []
  pending : Option Pending := none
  /-- whether `--` has been met -/
  plain : Bool := false
  /-- whether the plain argument has been met -/
  positionalSeen : Bool := false
deriving Repr

namespace Reading

/-- Set a value once. -/
def set (r : Reading) (name v : String) : Except Usage Reading :=
  if (r.values.get? name).isSome then .error .argumentConflict
  else .ok { r with values := r.values.insert name v }

/-- Check a value and set it. -/
def accept (r : Reading) (name : String) (k : ValueKind) (v : String) : Except Usage Reading := do
  let r ← r.set name v
  k.check v
  .ok r

/-- Check what is pending. -/
def settle (r : Reading) : Except Usage Reading :=
  match r.pending with
  | none => .ok r
  | some p =>
    match p.value with
    | none => .error .invalidValue
    | some v => { r with pending := none }.accept p.name p.kind v

/-- Whether an option waits for its value. -/
def isWaiting (r : Reading) : Bool :=
  match r.pending with
  | some p => p.value.isNone
  | none => false

/-- Give the waiting option its value. -/
def supply (r : Reading) (v : String) : Reading :=
  { r with pending := r.pending.map fun p => { p with value := some v } }

/-- Meet an option, perhaps with a value behind an equals sign. -/
def meet (r : Reading) (name : String) (k : OptionKind) (attached : Option String) :
    Except Usage Reading :=
  match k, attached with
  | .value k, some v => do
    let r ← r.settle
    r.accept name k v
  | .value k, none => do
    let r ← r.settle
    .ok { r with pending := some ⟨name, k, none⟩ }
  | _, some _ => .error .tooManyValues
  | .flag, none => do
    let r ← r.settle
    r.set name "true"
  | .help, none => do
    let _ ← r.settle
    .error .displayHelp
  | .version, none => do
    let _ ← r.settle
    .error .displayVersion

/-- Meet a plain argument. -/
def meetPlain (g : Grammar) (r : Reading) (v : String) : Except Usage Reading :=
  match g.positional, r.positionalSeen with
  | some name, false => do
    let r ← r.settle
    .ok { r with pending := some ⟨name, .path, some v⟩, positionalSeen := true }
  | _, _ =>
    .error (if g.subcommands.isEmpty || (r.plain && g.subcommands.contains v)
      then .unknownArgument else .invalidSubcommand)

/-- Meet an argument that begins with two hyphens and has more behind them. -/
def meetLong (g : Grammar) (r : Reading) (cs : List Char) : Except Usage Reading :=
  let name := String.ofList (cs.takeWhile (· ≠ '='))
  let attached := match cs.dropWhile (· ≠ '=') with
    | [] => none
    | _ :: v => some (String.ofList v)
  match g.long.get? name with
  | none => .error .unknownArgument
  | some k => r.meet name k attached

/-- Meet an argument that begins with one hyphen and has more behind it.  The letters only ask
for help or for the version, so the first decides. -/
def meetShort (g : Grammar) (r : Reading) (c : Char) : Except Usage Reading :=
  match g.short.find? fun o => o.1 == c with
  | none => .error .unknownArgument
  | some (_, k) => r.meet (String.ofList [c]) k none

/-- Meet an argument. -/
def step (g : Grammar) (r : Reading) (arg : String) : Except Usage Reading :=
  if r.plain then r.meetPlain g arg
  else
    match arg.toList with
    | ['-', '-'] => .ok { r with plain := true }
    | '-' :: '-' :: cs => r.meetLong g cs
    | '-' :: c :: _ => r.meetShort g c
    | _ => if r.isWaiting then .ok (r.supply arg) else r.meetPlain g arg

/-- Whether an argument names a command here. -/
def namesCommand (g : Grammar) (r : Reading) (arg : String) : Bool :=
  !r.plain && !r.isWaiting && g.subcommands.contains arg

end Reading

/-- Read arguments up to a command, if the grammar has any; the command and the arguments
behind it. -/
def readUpTo (g : Grammar) :
    Reading → List String → Except Usage (Reading × Option (String × List String))
  | r, [] => .ok (r, none)
  | r, arg :: args =>
    if r.namesCommand g arg then .ok (r, some (arg, args))
    else do
      let r ← r.step g arg
      readUpTo g r args

/-- Read all arguments of a command without commands inside. -/
def readAll (g : Grammar) (args : List String) : Except Usage (Fields String) := do
  let (r, _) ← readUpTo g {} args
  let r ← r.settle
  match g.positional with
  | some name =>
    if (r.values.get? name).isSome then .ok r.values else .error .missingRequiredArgument
  | none => .ok r.values

/-! ## Requests -/

/-- Compile a filter and show the statement. -/
structure CompileRequest where
  filter : String
  count : Bool
  sort : Option String
  partitionKey : Option String
deriving DecidableEq, Repr

/-- Load a file of records and query it. -/
structure QueryRequest where
  file : String
  collection : String
  partitionKey : Option String
  filter : String
  sort : Option String
  count : Bool
  pageSize : Option Nat
  continuation : Option String
  maxPerResponse : Option Nat
deriving DecidableEq, Repr

inductive Request where
  | compile (r : CompileRequest)
  | query (r : QueryRequest)
deriving DecidableEq, Repr

/-- A request, and the configuration file asked for. -/
structure Invocation where
  configuration : Option String
  request : Request
deriving DecidableEq, Repr

def compileGrammar : Grammar where
  long := [("filter", .value .text), ("count", .flag), ("sort", .value .text),
    ("partition-key", .value .text), ("help", .help)]
  short := [('h', .help)]

def queryGrammar : Grammar where
  long := [("collection", .value .text), ("partition-key", .value .text),
    ("filter", .value .text), ("sort", .value .text), ("count", .flag),
    ("page-size", .value .number), ("continuation", .value .text),
    ("max-per-response", .value .number), ("help", .help)]
  short := [('h', .help)]
  positional := some "file"

def programGrammar : Grammar where
  long := [("config", .value .path), ("help", .help), ("version", .version)]
  short := [('h', .help), ('V', .version)]
  subcommands := ["compile", "query", "help"]

/-- The number under a name. -/
def number? (values : Fields String) (name : String) : Option Nat :=
  (values.get? name).bind fun v => Text.readNat maxNumber v.toList

def compileRequest (values : Fields String) : CompileRequest where
  filter := (values.get? "filter").getD "true"
  count := (values.get? "count").isSome
  sort := values.get? "sort"
  partitionKey := values.get? "partition-key"

def queryRequest (values : Fields String) : QueryRequest where
  file := (values.get? "file").getD ""
  collection := (values.get? "collection").getD "records"
  partitionKey := values.get? "partition-key"
  filter := (values.get? "filter").getD "true"
  sort := values.get? "sort"
  count := (values.get? "count").isSome
  pageSize := number? values "page-size"
  continuation := values.get? "continuation"
  maxPerResponse := number? values "max-per-response"

/-- Help on a command: its names must lead to one. -/
def helpOn : List String → Usage
  | [] => .displayHelp
  | [command] =>
    if programGrammar.subcommands.contains command then .displayHelp else .invalidSubcommand
  | _ => .invalidSubcommand

/-- Read the request of a command. -/
def readRequest (command : String) (args : List String) : Except Usage Request :=
  match command with
  | "compile" => (readAll compileGrammar args).map fun v => .compile (compileRequest v)
  | "query" => (readAll queryGrammar args).map fun v => .query (queryRequest v)
  | _ => .error (helpOn args)

/-- Read the arguments of the program. -/
def Invocation.ofArguments (args : List String) : Except Usage Invocation := do
  let (r, command) ← readUpTo programGrammar {} args
  match command with
  | some (name, rest) => do
    let request ← readRequest name rest
    let r ← r.settle
    .ok ⟨r.values.get? "config", request⟩
  | none => do
    let r ← r.settle
    .error (if r.values.isEmpty then .displayHelpOnMissingArgumentOrSubcommand
      else .missingSubcommand)

example : (Invocation.ofArguments ["compile", "--count", "--filter=false"]).toOption
    = some ⟨none, .compile ⟨"false", true, none, none⟩⟩ := by decide +kernel

end DocQuery.CommandLine
