/-
  Entity types with fixed fields.

  A schema lists fields with their types.  A record is read field by field in its own order, so
  the first field that does not fit decides the fault; only then are missing fields looked for,
  in the order of the schema.  Fields that the schema does not know are passed over.  What is
  read holds the fields in the order of the schema.
-/
import DocQuery.Entity

namespace DocQuery

/-- The type of a field. -/
inductive FieldType where
  | text | int32 | int64
  /-- text that may be missing or null -/
  | optionalText
deriving DecidableEq, Repr

/-- Fields with their types. -/
abbrev Schema := Fields FieldType

namespace Value

/-- The value of a field of some type; none if it counts as missing. -/
def readAs (t : FieldType) (v : Value) : Except MappingFault (Option Value) :=
  match t with
  | .text => v.readText.map fun s => some (.text s)
  | .optionalText =>
    match v with
    | null => .ok none
    | v => v.readText.map fun s => some (.text s)
  | .int32 =>
    (v.readInteger "i32" Int32.minValue.toInt Int32.maxValue.toInt).map
      fun n => some (.int32 (Int32.ofInt n))
  | .int64 =>
    (v.readInteger "i64" Int64.minValue.toInt Int64.maxValue.toInt).map
      fun n => some (.int64 (Int64.ofInt n))

end Value

namespace Schema

/-- The fields of a record that the schema knows, with their values. -/
def readFields (s : Schema) : List (String × Value) → Except MappingFault Document
  | [] => .ok []
  | (k, v) :: rest =>
    match Fields.get? s k with
    | none => readFields s rest
    | some t => do
      let v ← v.readAs t
      let rest ← readFields s rest
      .ok (match v with
        | some v => (k, v) :: rest
        | none => rest)

/-- The fields of the schema in order, out of those that were found. -/
def arrange (found : Document) : List (String × FieldType) → Except MappingFault Document
  | [] => .ok []
  | (k, t) :: rest =>
    match found.get? k with
    | some v => do
      let rest ← arrange found rest
      .ok ((k, v) :: rest)
    | none => if t = .optionalText then arrange found rest else .error (.missingField k)

/-- Read a record. -/
def read (s : Schema) (d : Document) : Except MappingFault Document := do
  let found ← s.readFields d
  arrange found s

end Schema

/-- The type of records with the fields of a schema. -/
def EntityType.ofSchema (d : EntityDeclaration) (s : Schema) : EntityType Document where
  toEntityDeclaration := d
  read r := s.read r
  write r := .ok r

end DocQuery
