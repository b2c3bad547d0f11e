/-
  Loaded records.

  Integers have 64 bits.  Only an object that holds nothing but an extended form becomes that
  value, inner objects first; one that does not quite fit stays a document.

  1. why a JSON value is no record;
  2. documents that stand for other values;
  3. `loaded` and `loadRecord`.
-/
import DocQuery.Value.Json
import DocQuery.Value.Order

namespace DocQuery

namespace Value

/-! ## Faults -/

/-- Why a JSON value is no record. -/
inductive LoadFault where
  /-- an integer above the range of 64 bits with sign -/
  | tooLarge (n : Nat)
  /-- a value of another type than a document -/
  | notDocument (type : String)
deriving DecidableEq, Repr

def LoadFault.message : LoadFault → String
  | tooLarge n =>
    "BSON does not support unsigned integers.\n                 An attempt to serialize the value: "
      ++ Text.ofNat n ++ " in a signed type failed due to the value's size."
  | notDocument t => "Could not be serialized to Document, got " ++ t ++ " instead"

/-- Name of the type of a value. -/
def typeName : Value → String
  | null => "Null"
  | bool _ => "Boolean"
  | int32 _ => "Int32"
  | int64 _ => "Int64"
  | double _ => "Double"
  | decimal _ => "Decimal128"
  | text _ => "String"
  | array _ => "Array"
  | doc _ => "EmbeddedDocument"
  | date _ => "DateTime"
  | objectId _ => "ObjectId"
  | timestamp _ _ => "Timestamp"
  | binary _ _ => "Binary"
  | regex _ _ => "RegularExpression"
  | code _ => "JavaScriptCode"
  | scopedCode _ _ => "JavaScriptCodeWithScope"
  | symbol _ => "Symbol"
  | minKey => "MinKey"
  | maxKey => "MaxKey"
  | undefined => "Undefined"
  | pointer _ _ => "DbPointer"

/-! ## Documents that stand for other values -/

/-- Whether a value is the integer one. -/
def isOne (v : Value) : Bool :=
  v.int? == some 1

/-- Two integers of one type as a timestamp; narrow ones wrap around. -/
def timestampOf? : Value → Value → Option Value
  | int32 t, int32 i => some (timestamp t.toUInt32 i.toUInt32)
  | int64 t, int64 i =>
    if 0 ≤ t.toInt ∧ t.toInt < UInt32.size ∧ 0 ≤ i.toInt ∧ i.toInt < UInt32.size then
      some (timestamp (UInt32.ofNat t.toInt.toNat) (UInt32.ofNat i.toInt.toNat))
    else none
  | _, _ => none

/-- Bytes in base64 with a subtype in hexadecimal, or bytes with the number of a subtype. -/
def binaryOf? (d : Document) : Option Value :=
  match d.get? "base64", d.get? "subType" with
  | some (text b), some (text s) => ofBinaryTexts? b s
  | some (text _), _ => none
  | _, some (int32 s) =>
    match d.get? "bytes" with
    | some (binary 0 bytes) =>
      if 0 ≤ s.toInt ∧ s.toInt < UInt8.size then some (binary (UInt8.ofNat s.toInt.toNat) bytes)
      else none
    | _ => none
  | _, _ => none

/-- The value that a document of one field stands for, if it is exactly an extended form. -/
def ofSingleField? (key : String) (body : Value) : Option Value :=
  match key, body with
  | "$oid", text s => ofOidText? s
  | "$symbol", text s => some (symbol s)
  | "$numberInt", text s => ofInt32Text? s
  | "$numberLong", text s => (int64OfText? s).map int64
  | "$numberDouble", text s => ofDoubleText? s
  | "$numberDecimal", text s => ofDecimalText? s
  | "$numberDecimalBytes", binary 0 bytes => (Decimal128.ofBytes? bytes).map decimal
  | "$code", text s => some (code s)
  | "$date", text s => ofDateText? s
  | "$date", int64 ms => some (date ms)
  | "$minKey", v => if v.isOne then some minKey else none
  | "$maxKey", v => if v.isOne then some maxKey else none
  | "$undefined", bool true => some undefined
  | "$binary", doc d => binaryOf? d
  | "$timestamp", doc d => do timestampOf? (← Fields.get? d "t") (← Fields.get? d "i")
  | "$regularExpression", doc d => do
    some (ofRegexTexts (← Document.getText? d "pattern") (← Document.getText? d "options"))
  | "$dbPointer", doc d =>
    match Fields.get? d "$ref", Fields.get? d "$id" with
    | some (text name), some (objectId bytes) => some (pointer name bytes)
    | _, _ => none
  | _, _ => none

/-- A document, or the value that its fields stand for. -/
def ofLoadedFields (d : Document) : Value :=
  match d with
  | [(k, v)] => (ofSingleField? k v).getD (doc d)
  | [_, _] =>
    match Fields.get? d "$code", Fields.get? d "$scope" with
    | some (text s), some (doc scope) => scopedCode s scope
    | _, _ => doc d
  | _ => doc d

/-! ## Loading -/

/-- Take the values out of fields, or the first fault. -/
def sequence : List (String × Except LoadFault Value) → Except LoadFault Document
  | [] => .ok []
  | (k, v) :: rest => do
    let v ← v
    let fs ← sequence rest
    .ok ((k, v) :: fs)

mutual

/-- The value of a JSON value in a loaded record: integers have 64 bits. -/
def loaded : Json → Except LoadFault Value
  | .null => .ok .null
  | .bool b => .ok (.bool b)
  | .int n =>
    if n ≤ Int64.maxValue.toInt then .ok (.int64 (Int64.ofInt n)) else .error (.tooLarge n.toNat)
  | .float x => .ok (.double x)
  | .str s => .ok (.text s)
  | .arr xs => (loadedItems xs).map .array
  | .obj ms => (sequence (Fields.ofList (loadedMembers ms))).map ofLoadedFields

/-- The values of some items. -/
def loadedItems : List Json → Except LoadFault (List Value)
  | [] => .ok []
  | x :: xs => do
    let v ← loaded x
    let vs ← loadedItems xs
    .ok (v :: vs)

/-- The values of some members, or their faults. -/
def loadedMembers : List (String × Json) → List (String × Except LoadFault Value)
  | [] => []
  | (k, j) :: ms => (k, loaded j) :: loadedMembers ms

end

/-- A record: the value must be a document. -/
def loadRecord (j : Json) : Except LoadFault Document := do
  match ← loaded j with
  | .doc d => .ok d
  | v => .error (.notDocument v.typeName)

end Value

end DocQuery
