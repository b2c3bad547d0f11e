/-
  Entity types: what a kind of entity looks like as a record, and where it is stored.

  The mappings belong to the type, since nothing else knows what a record of it has to look like,
  and both may fail.  Metadata is derived from the declaration alone, so the mappings do not
  matter to it.

  1. `EntityDeclaration`: name, collection, partition field, versioning;
  2. `EntityType`: a declaration with the two mappings.
-/
import DocQuery.Mapping.Extended
import DocQuery.Value.Canonical

namespace DocQuery

/-! ## Declarations -/

/-- Request units of a collection that nobody gave any. -/
def defaultRequestUnits : Nat := 400

/-- What an entity type says about its collection. -/
structure EntityDeclaration where
  name : String
  /-- where the type stands and what it is applied to: types of one name are told apart by it -/
  scope : String := ""
  /-- the collection; by default the name of the type in lower case -/
  collection : String := Text.lower name
  /-- fields that the partition key is taken from; at most one is supported -/
  partitionFields : List String := []
  /-- whether writes go by the version token of the entity -/
  versioned : Bool := false
  requestUnits : Nat := defaultRequestUnits
deriving DecidableEq, Repr

/-! ## Entity types -/

/-- An entity type with values `α`. -/
structure EntityType (α : Type) extends EntityDeclaration where
  read : Document → Except MappingFault α
  write : α → Except MappingFault Document

/-- The type of records of any shape under a declaration.  Values are resolved when a record is
read, and decimal numbers canonical when it is written. -/
def EntityType.records (d : EntityDeclaration) : EntityType Document where
  toEntityDeclaration := d
  read r := r.resolve
  write r := .ok r.canonical

end DocQuery
