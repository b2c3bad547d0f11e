/-
  The JSON form of page states.

  Clients keep the state between two requests as text.  It is read as a record: an object with
  the fields `page_number`, `size`, `offset`, `continuation` and `sort`, or an array of them.
  In an object the continuation and the sort may be left out, in an array only the sort.
-/
import DocQuery.Json.Record
import DocQuery.Page

namespace DocQuery

open Json (Reading readWord64 readText readOptional readListOf readChoice readRecord RecordShape)

/-! ## Writing -/

namespace Direction

/-- The names of the directions. -/
def names : Fields Direction :=
  [("Asc", .ascending), ("Desc", .descending)]

def name : Direction → String
  | ascending => "Asc"
  | descending => "Desc"

end Direction

def SortKey.toJson (k : SortKey) : Json :=
  .obj [("field", .str k.field), ("order", .str k.direction.name)]

/-- An object that holds some sort keys. -/
def sortToJson (keys : List SortKey) : Json :=
  .obj [("orders", .arr (keys.map SortKey.toJson))]

def optionToJson : Option String → Json
  | none => .null
  | some s => .str s

def PageState.toJson (s : PageState) : Json :=
  .obj [("page_number", .int s.number), ("size", .int s.size), ("offset", .int s.offset),
    ("continuation", optionToJson s.continuation), ("sort", sortToJson s.sort)]

/-! ## Reading -/

/-- Read a field and put it into a record. -/
def putting {σ α : Type} (item : Reading α) (put : σ → α → σ) (s : σ) (cs : List Char) :
    Except Json.Fault (σ × List Char) := do
  let (a, cs) ← item cs
  .ok (put s a, cs)

/-- A sort key of which some fields have been read. -/
structure PartialSortKey where
  field : Option String := none
  direction : Option Direction := none

def PartialSortKey.shape : RecordShape PartialSortKey where
  fields :=
    [("field", putting readText fun s a => { s with field := some a }),
     ("order", putting (readChoice Direction.names) fun s a => { s with direction := some a })]
  required := 2

def PartialSortKey.finish (s : PartialSortKey) : Option SortKey := do
  some ⟨← s.field, ← s.direction⟩

/-- A sort key. -/
def SortKey.read (cs : List Char) : Except Json.Fault (SortKey × List Char) :=
  readRecord PartialSortKey.shape {} PartialSortKey.finish cs

def sortShape : RecordShape (Option (List SortKey)) where
  fields := [("orders", putting (readListOf SortKey.read) fun _ keys => some keys)]
  required := 1

/-- The sort keys that an object holds. -/
def readSort (cs : List Char) : Except Json.Fault (List SortKey × List Char) :=
  readRecord sortShape none id cs

/-- A page state of which some fields have been read. -/
structure PartialPageState where
  number : Option Nat := none
  size : Option Nat := none
  offset : Option Nat := none
  continuation : Option String := none
  sort : List SortKey := []

def PartialPageState.shape : RecordShape PartialPageState where
  fields :=
    [("page_number", putting readWord64 fun s n => { s with number := some n }),
     ("size", putting readWord64 fun s n => { s with size := some n }),
     ("offset", putting readWord64 fun s n => { s with offset := some n }),
     ("continuation", putting (readOptional readText) fun s c => { s with continuation := c }),
     ("sort", putting readSort fun s keys => { s with sort := keys })]
  required := 4

def PartialPageState.finish (s : PartialPageState) : Option PageState := do
  some ⟨← s.number, ← s.size, ← s.offset, s.continuation, s.sort⟩

/-- Read the text of a page state. -/
def PageState.ofText (s : String) : Except Json.Fault PageState :=
  Json.readWhole (readRecord PartialPageState.shape {} PartialPageState.finish) s

end DocQuery
