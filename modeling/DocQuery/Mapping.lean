/-
  Reading the values of records as what an entity needs.

  1. `MappingFault`: why a record is no entity, and how that reads;
  2. what a value is called in such messages;
  3. readers of texts, numbers, truth values and bytes;
  4. readers of bodies, which have one or two named parts.
-/
import DocQuery.Record
import DocQuery.Text.Quoted
import DocQuery.Value.Loaded

namespace DocQuery

/-! ## Faults -/

/-- Why a record is no entity of a type, or an entity no record. -/
inductive MappingFault where
  | missingField (field : String)
  | unknownField (field : String) (expected : List String)
  /-- a value of another type -/
  | wrongType (found expected : String)
  /-- a value that its type cannot hold -/
  | wrongValue (found expected : String)
  /-- a list of too few parts -/
  | wrongLength (length : Nat) (expected : String)
  /-- bytes of another number than a type has -/
  | wrongSize
  /-- a text of another length than an identifier in hexadecimal -/
  | wrongHexLength (text : String)
  /-- a character that is no hexadecimal digit -/
  | wrongHexDigit (digit : Char) (position : Nat) (text : String)
  /-- a value that is no date in any form -/
  | noDate
  /-- a stored record without an id of text -/
  | noId (collection : String)
  /-- a line that is no record -/
  | badLine (number : Nat) (fault : Value.LoadFault)
deriving DecidableEq, Repr

/-- A name in a message. -/
def ticked (s : String) : String :=
  "\x60" ++ s ++ "\x60"

def MappingFault.message : MappingFault → String
  | missingField field => "missing field " ++ ticked field
  | unknownField field expected =>
    "unknown field " ++ ticked field ++ ", expected " ++ Text.join " or " (expected.map ticked)
  | wrongType found expected => "invalid type: " ++ found ++ ", expected " ++ expected
  | wrongValue found expected => "invalid value: " ++ found ++ ", expected " ++ expected
  | wrongLength length expected =>
    "invalid length " ++ Text.ofNat length ++ ", expected " ++ expected
  | wrongSize => "could not convert slice to array"
  | wrongHexLength text =>
    "provided hex string representation must be exactly 12 bytes, instead got: \"" ++ text
      ++ "\", length " ++ Text.ofNat text.utf8ByteSize
  | wrongHexDigit digit position text =>
    "invalid character '" ++ String.ofList [digit] ++ "' was found at index "
      ++ Text.ofNat position ++ " in the provided hex string: \"" ++ text ++ "\""
  | noDate => "data did not match any variant of untagged enum DateTimeBody"
  | noId collection => "record in '" ++ collection ++ "' has no '" ++ idField ++ "'"
  | badLine number fault => "line " ++ Text.ofNat number ++ ": " ++ fault.message

namespace Value

/-! ## Names of values -/

/-- A number with a point in it, unless it is infinite or no number. -/
def pointed (x : Binary64) : String :=
  let s := x.write .plain
  if s.toList.contains '.' || !x.isFinite then s else s ++ ".0"

/-- What a value is called in messages about its type. -/
def described : Value → String
  | null => "unit value"
  | bool b => "boolean " ++ ticked (if b then "true" else "false")
  | int32 n => "integer " ++ ticked (Text.ofInt n.toInt)
  | int64 n => "integer " ++ ticked (Text.ofInt n.toInt)
  | double x => "floating point " ++ ticked (pointed x)
  | text s => "string " ++ Text.quote s
  | array _ => "sequence"
  | binary s _ => if s = 0 then "byte array" else "map"
  | _ => "map"

/-! ## Simple values -/

/-- The text that some bytes are the encoding of. -/
def textOfBytes? (bytes : List UInt8) : Option String :=
  String.fromUTF8? (ByteArray.mk bytes.toArray)

/-- Text; bytes without a subtype count as its encoding. -/
def readText (v : Value) : Except MappingFault String :=
  match v with
  | text s => .ok s
  | binary 0 bytes =>
    match textOfBytes? bytes with
    | some s => .ok s
    | none => .error (.wrongValue v.described "a string")
  | v => .error (.wrongType v.described "a string")

/-- The value that a text spells, which is called `expected`. -/
def readSpelled {α : Type} (expected : String) (parse : String → Option α) (v : Value) :
    Except MappingFault α := do
  let s ← v.readText
  match parse s with
  | some a => .ok a
  | none => .error (.wrongValue (text s).described expected)

/-- An integer of a type with a range. -/
def readInteger (type : String) (low high : Int) (v : Value) : Except MappingFault Int :=
  match v.int? with
  | some n => if low ≤ n ∧ n ≤ high then .ok n else .error (.wrongValue v.described type)
  | none => .error (.wrongType v.described type)

/-- A number of 8 bits without sign. -/
def readByte (v : Value) : Except MappingFault UInt8 :=
  (v.readInteger "u8" 0 (UInt8.size - 1)).map fun n => UInt8.ofNat n.toNat

/-- A number of 32 bits without sign. -/
def readWord (v : Value) : Except MappingFault UInt32 :=
  (v.readInteger "u32" 0 (UInt32.size - 1)).map fun n => UInt32.ofNat n.toNat

/-- A truth value. -/
def readBool : Value → Except MappingFault Bool
  | bool b => .ok b
  | v => .error (.wrongType v.described "a boolean")

/-- Bytes: as such, as a list of numbers, or as a text for its encoding. -/
def readBytes : Value → Except MappingFault (List UInt8)
  | binary 0 bytes => .ok bytes
  | array xs => xs.mapM readByte
  | text s => .ok s.toUTF8.data.toList
  | v => .error (.wrongType v.described "byte array")

end Value

/-! ## Bodies -/

/-- A part of a body: its key, and how its value is read. -/
structure BodyPart (α : Type) where
  key : String
  read : Value → Except MappingFault α

/-- What a body with `count` parts is called. -/
def bodyName (name : String) : String :=
  "struct " ++ name

/-- What a list in place of a body is called. -/
def bodyItems (name : String) (count : Nat) : String :=
  bodyName name ++ " with " ++ Text.ofNat count ++ (if count = 1 then " element" else " elements")

/-- The fields that a value counts as to a reader of fields: those of a document, or those of the
extended form. -/
def Value.asFields? (v : Value) : Option Document :=
  v.fields?.or v.extended?

/-- The part that the fields of a body hold; `found` is its value, once it has been met. -/
def readOnlyField {α : Type} (a : BodyPart α) (found : Option α) :
    List (String × Value) → Except MappingFault α
  | [] =>
    match found with
    | some x => .ok x
    | none => .error (.missingField a.key)
  | (k, v) :: rest =>
    if k = a.key then do
      let x ← a.read v
      readOnlyField a (some x) rest
    else .error (.unknownField k [a.key])

/-- A body of one part.  A list may stand for it; more items than parts do not matter. -/
def readSingle {α : Type} (name : String) (a : BodyPart α) (v : Value) : Except MappingFault α :=
  match v with
  | .array [] => .error (.wrongLength 0 (bodyItems name 1))
  | .array (x :: _) => a.read x
  | v =>
    match v.asFields? with
    | some fields => readOnlyField a none fields
    | none => .error (.wrongType v.described (bodyName name))

/-- The parts that the fields of a body hold, in any order; `x` and `y` are their values, once
they have been met. -/
def readBothFields {α β : Type} (a : BodyPart α) (b : BodyPart β) (x : Option α) (y : Option β) :
    List (String × Value) → Except MappingFault (α × β)
  | [] =>
    match x, y with
    | some x, some y => .ok (x, y)
    | none, _ => .error (.missingField a.key)
    | some _, none => .error (.missingField b.key)
  | (k, v) :: rest =>
    if k = a.key then do
      let x ← a.read v
      readBothFields a b (some x) y rest
    else if k = b.key then do
      let y ← b.read v
      readBothFields a b x (some y) rest
    else .error (.unknownField k [a.key, b.key])

/-- A body of two parts.  A list may stand for it; more items than parts do not matter. -/
def readPair {α β : Type} (name : String) (a : BodyPart α) (b : BodyPart β) (v : Value) :
    Except MappingFault (α × β) :=
  match v with
  | .array [] => .error (.wrongLength 0 (bodyItems name 2))
  | .array [x] => do
    let _ ← a.read x
    .error (.wrongLength 1 (bodyItems name 2))
  | .array (x :: y :: _) => do
    let x ← a.read x
    let y ← b.read y
    .ok (x, y)
  | v =>
    match v.asFields? with
    | some fields => readBothFields a b none none fields
    | none => .error (.wrongType v.described (bodyName name))

end DocQuery
