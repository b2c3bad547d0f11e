/-
  The program at the terminal.
-/
import DocQuery.CommandLine
import Std.Time.DateTime.Timestamp

namespace DocQuery.Terminal

open CommandLine (Invocation Outcome Surroundings)

/-- The variables that the program looks at. -/
def watchedVariables : List String :=
  [Configuration.fileVariable, Configuration.databaseVariable, Configuration.metricsVariable]

/-- The variables that are set. -/
def readVariables : List String → IO (Fields String)
  | [] => pure []
  | name :: rest => do
    let others ← readVariables rest
    match ← IO.getEnv name with
    | some v => pure ((name, v) :: others)
    | none => pure others

/-- Why the system refused to read a file. -/
def faultOf : IO.Error → FileFault
  | .noFileOrDirectory _ _ _ => .notFound
  | .inappropriateType _ code _ => if code = 21 then .isDirectory else .notDirectory
  | .invalidArgument _ code details => if code = 36 then .nameTooLong else .other details
  | e => .other e.toString

/-- What reading some files gives. -/
def readFiles : List String → IO (Fields (Except FileFault String))
  | [] => pure []
  | path :: rest => do
    let others ← readFiles rest
    let content ← (IO.FS.readFile path).toBaseIO
    pure ((path, content.mapError faultOf) :: others)

/-- The files that a run may look at. -/
def filesOf (environment? : String → Option String) (args : List String) : List String :=
  match Invocation.ofArguments args with
  | .error _ => []
  | .ok i =>
    Configuration.paths environment? i.configuration
      ++ match i.request with
        | .compile _ => []
        | .query r => [r.file]

/-- Tokens that begin with random digits and go on by number. -/
def stamper : IO Stamper := do
  let random ← IO.getRandomBytes 12
  let now ← Std.Time.Timestamp.now
  let seconds := Int64.ofInt now.toSecondsSinceUnixEpoch.val
  pure ⟨fun n => "\"" ++ Text.hexOfBytes random.toList ++ "-" ++ Text.ofNat n ++ "\"",
    fun _ => seconds⟩

/-- Print the outcome of a run; the exit code. -/
def finish : Outcome → IO UInt32
  | .usage u => do
    IO.eprintln u.name
    pure (UInt32.ofNat u.exitCode)
  | .finished lines => do
    for line in lines do
      IO.println line
    pure 0
  | .failed e => do
    IO.eprintln ("error: " ++ e.message)
    pure 1

end DocQuery.Terminal

open DocQuery Terminal in
/-- Run the program. -/
def main (args : List String) : IO UInt32 := do
  let set ← readVariables watchedVariables
  let files ← readFiles (filesOf set.get? args)
  let file (path : String) := (files.get? path).getD (.error .notFound)
  let surroundings : CommandLine.Surroundings := ⟨file, set.get?, ← stamper⟩
  finish (CommandLine.run surroundings args)
