/-
  Sort keys, and the text people write them in.

  A text is a list of entries between commas.  An entry is a field, perhaps with a colon and a
  direction; white space around either is dropped, and so are empty entries.
-/
import DocQuery.Fault
import DocQuery.Value.Order

namespace DocQuery

/-- A field to sort by. -/
structure SortKey where
  field : String
  direction : Direction
deriving DecidableEq, Repr

namespace SortKey

/-- Read a direction in any case. -/
def directionOf (word : String) : Except ArgumentFault Direction :=
  match Text.lower word with
  | "asc" => .ok .ascending
  | "desc" => .ok .descending
  | other => .error (.unknownDirection other)

/-- Read one trimmed entry. -/
def ofEntry (entry : List Char) : Except ArgumentFault SortKey := do
  let field := Text.trim (String.ofList (entry.takeWhile (· ≠ ':')))
  let direction := match entry.dropWhile (· ≠ ':') with
    | [] => "asc"
    | _ :: d => Text.trim (String.ofList d)
  if field.isEmpty then .error (.emptySortField (String.ofList entry))
  else do
    let direction ← directionOf direction
    .ok ⟨field, direction⟩

/-- The trimmed entries of a text that are not empty. -/
def entries (s : String) : List (List Char) :=
  ((Text.pieces (· == ',') s.toList).map Text.trimChars).filter fun e => !e.isEmpty

/-- Read a list of sort keys; the first entry that is none decides the fault. -/
def ofText (s : String) : Except ArgumentFault (List SortKey) :=
  (entries s).mapM ofEntry

example : (ofText " a:DESC ,, b").toOption = some [⟨"a", .descending⟩, ⟨"b", .ascending⟩] := by
  decide

end SortKey

end DocQuery
