/-
  What goes wrong in a request before it reaches a backend, and how that reads.
-/
import DocQuery.Criteria

namespace DocQuery

/-- A filter that has no query. -/
inductive QueryFault where
  /-- an object of a filter names neither a field nor a combinator -/
  | noField
  /-- an object of a filter names a blank field -/
  | blankField
  /-- an object of a filter names a field and nothing to compare it with -/
  | noOperator
  /-- a group without children -/
  | emptyGroup (kind : Criteria.Kind)
  /-- a leaf about a blank field -/
  | noSubject (kind : Criteria.Kind)
  /-- a membership test without values -/
  | noValues (field : String)
  /-- a blank path to sort by -/
  | emptyPath
  /-- two neighbouring dots in a path, or one at its end -/
  | emptySegment (path : String)
deriving DecidableEq, Repr

def QueryFault.message : QueryFault → String
  | noField => "criteria object needs \"field\" or a combinator"
  | blankField => "criteria field must not be empty"
  | noOperator => "No comparison operator provided (use $null for null checks)"
  | emptyGroup kind => kind.name ++ " needs at least one child"
  | noSubject kind => kind.name ++ " needs a subject"
  | noValues field => "In on '" ++ field ++ "' has no values"
  | emptyPath => "empty field path"
  | emptySegment path => "empty segment in field path '" ++ path ++ "'"

/-- An argument that no request can be made of. -/
inductive ArgumentFault where
  /-- a name or id of nothing but white space -/
  | blank (what : String)
  | blankEntityId
  | emptySortField (entry : String)
  | unknownDirection (word : String)
  | manyPartitionFields (count : Nat)
  /-- an entity lacks the field that its partition key is taken from -/
  | noPartitionField (field collection : String)
  | noPageState
  | zeroPageSize
deriving DecidableEq, Repr

def ArgumentFault.message : ArgumentFault → String
  | blank what => what ++ " should not be empty or only whitespaces"
  | blankEntityId => "entity id should not be empty or only whitespaces"
  | emptySortField entry => "empty sort field in '" ++ entry ++ "'"
  | unknownDirection word => "unknown sort direction '" ++ word ++ "'"
  | manyPartitionFields n =>
    "at most one partition key field is supported, got " ++ Text.ofNat n
  | noPartitionField field collection =>
    "partition key field '" ++ field ++ "' is missing from the record for collection '"
      ++ collection ++ "'"
  | noPageState => "paginated query needs a page state"
  | zeroPageSize => "page size should be greater than 0"

/-- Refuse a text of nothing but white space. -/
def requireText (what s : String) : Except ArgumentFault Unit :=
  if Text.isBlank s then .error (.blank what) else .ok ()

end DocQuery
