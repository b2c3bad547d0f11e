/-
  Document values.

  A path goes through documents only, never into a list, and a store reads no path of more than
  `maxPathDepth` segments.  `Value.same` is the equality of what lies inside lists and documents;
  comparisons at the top are in `DocQuery.Value.Order`.

  1. `Value` and `Document`: a document is a list of fields in order, keys distinct;
  2. values at dotted paths;
  3. structural equality, blind to field order, in which numbers of different types differ.
-/
import DocQuery.Fields
import DocQuery.Number.Binary64
import DocQuery.Number.Decimal128

namespace DocQuery

/-- A value of a document field. -/
inductive Value where
  | null
  | bool (b : Bool)
  | int32 (n : Int32)
  | int64 (n : Int64)
  | double (x : Binary64)
  | decimal (d : Decimal128)
  | text (s : String)
  | array (items : List Value)
  | doc (fields : List (String × Value))
  /-- milliseconds since 1970-01-01T00:00:00Z -/
  | date (ms : Int64)
  /-- twelve bytes -/
  | objectId (bytes : List UInt8)
  | timestamp (time increment : UInt32)
  | binary (subtype : UInt8) (bytes : List UInt8)
  | regex (pattern options : String)
  | code (source : String)
  /-- code with the fields that its free names stand for -/
  | scopedCode (source : String) (scope : List (String × Value))
  | symbol (s : String)
  | minKey
  | maxKey
  | undefined
  /-- twelve bytes that name a record of a collection -/
  | pointer (collection : String) (bytes : List UInt8)
deriving Repr, Inhabited

/-- Fields in order.  A document that is built by `Fields.insert` holds every key once. -/
abbrev Document := Fields Value

/-- The text under a key, if there is text. -/
def Document.getText? (d : Document) (key : String) : Option String :=
  match d.get? key with
  | some (.text s) => some s
  | _ => none

/-! ## Paths -/

/-- Segments a path may have when a store reads it. -/
def maxPathDepth : Nat := 32

/-- The segments of a dotted field path. -/
def segments (path : String) : List String :=
  Text.split (· == '.') path

namespace Document

/-- The value at the end of a path through nested documents. -/
def walk (d : Document) : List String → Option Value
  | [] => none
  | [key] => d.get? key
  | key :: rest =>
    match d.get? key with
    | some (.doc inner) => walk inner rest
    | _ => none

/-- The value at a path of at most `maxPathDepth` segments. -/
def atPath (d : Document) (path : List String) : Option Value :=
  if path.length ≤ maxPathDepth then d.walk path else none

end Document

/-! ## Equality -/

mutual

/-- Structural equality.  Documents are equal as maps; doubles as numbers. -/
def Value.same : Value → Value → Bool
  | .null, .null => true
  | .bool a, .bool b => a == b
  | .int32 a, .int32 b => a == b
  | .int64 a, .int64 b => a == b
  | .double a, .double b => a.same b
  | .decimal a, .decimal b => decide (a = b)
  | .text a, .text b => a == b
  | .array xs, .array ys => sameItems xs ys
  | .doc fs, .doc gs => fs.length == gs.length && sameFields fs gs
  | .date a, .date b => a == b
  | .objectId a, .objectId b => a == b
  | .timestamp t i, .timestamp u j => t == u && i == j
  | .binary s xs, .binary t ys => s == t && xs == ys
  | .regex p o, .regex q r => p == q && o == r
  | .code a, .code b => a == b
  | .scopedCode a fs, .scopedCode b gs => a == b && fs.length == gs.length && sameFields fs gs
  | .symbol a, .symbol b => a == b
  | .minKey, .minKey => true
  | .maxKey, .maxKey => true
  | .undefined, .undefined => true
  | .pointer a xs, .pointer b ys => a == b && xs == ys
  | _, _ => false

/-- Equal item by item. -/
def sameItems : List Value → List Value → Bool
  | [], [] => true
  | x :: xs, y :: ys => x.same y && sameItems xs ys
  | _, _ => false

/-- Every field has an equal field of the same key in `gs`. -/
def sameFields : List (String × Value) → Document → Bool
  | [], _ => true
  | (k, v) :: fs, gs =>
    (match gs.get? k with
      | some w => v.same w
      | none => false) && sameFields fs gs

end

example : Value.same (.doc [("a", .null), ("b", .minKey)])
    (.doc [("b", .minKey), ("a", .null)]) := by decide

end DocQuery
