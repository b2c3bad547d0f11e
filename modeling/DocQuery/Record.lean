/-
  Records: documents that a store keeps.

  A record has an id, and once it has been stored a version token and the time of its last
  write.  Point operations name the partition a record lies in by the key of that partition.
-/
import DocQuery.Value.Display
import DocQuery.Value.Json
import DocQuery.Value.Order

namespace DocQuery

/-- The field that holds the id of a record. -/
def idField : String := "id"

/-- The field that holds the version token. -/
def versionField : String := "_etag"

/-- The field that holds the time of the last write, in seconds since 1970. -/
def timestampField : String := "_ts"

namespace Document

/-- The id of a record. -/
def id? (d : Document) : Option String :=
  d.getText? idField

/-- The version token of a record. -/
def version? (d : Document) : Option String :=
  d.getText? versionField

end Document

/-- The key of a partition; `none` is where records without one lie. -/
inductive PartitionKey where
  | none
  | value (v : Value)
deriving Repr, Inhabited

namespace PartitionKey

/-- The key of a record whose partition field holds `v`; null counts as missing. -/
def ofField : Option Value → PartitionKey
  | .none => none
  | some .null => none
  | some v => value v

def value? : PartitionKey → Option Value
  | none => .none
  | value v => some v

/-- Readable text of a key. -/
def display : PartitionKey → String
  | none => "<none>"
  | value v => v.display

/-- JSON form of a key. -/
def toJson : PartitionKey → Json
  | none => .str "None"
  | value v => .obj [("Value", v.toJson)]

/-- Whether two keys name one partition; numbers count by value. -/
def same (a b : PartitionKey) : Bool :=
  match a, b with
  | none, none => true
  | value x, value y => x.equals y
  | _, _ => false

end PartitionKey

end DocQuery
