/-
  Records whose documents may stand for other values.

  A record is read field by field.  The first key of the extended form, on any level, makes the
  document that it stands in the value that the form spells: fields before it are dropped, fields
  behind it are not looked at.  Only code looks at one field more, for its scope.  So what is read
  holds no key of the extended form any more, and a pattern has its options in order.

  1. readers of what the keys hold;
  2. `Value.resolve` and `Document.resolve`.
-/
import DocQuery.Mapping

namespace DocQuery

namespace Value

/-! ## What the keys hold -/

/-- An identifier: in hexadecimal, or its bytes. -/
def readOid : Value → Except MappingFault Value
  | text s =>
    match oidBytes? s with
    | some bytes => .ok (objectId bytes)
    | none => .error (.wrongValue (text s).described "24-character, big-endian hex string")
  | binary 0 bytes => if bytes.length = 12 then .ok (objectId bytes) else .error .wrongSize
  | v => .error (.wrongType v.described "hexstring or byte array")

/-- A decimal number by its bytes. -/
def readDecimalBytes (v : Value) : Except MappingFault Value := do
  match Decimal128.ofBytes? (← v.readBytes) with
  | some d => .ok (decimal d)
  | none => .error .wrongSize

/-- Bytes in base64 with a subtype in hexadecimal. -/
def readBinary (v : Value) : Except MappingFault Value := do
  let (base64, subtype) ← readPair "BinaryBody" ⟨"base64", readText⟩ ⟨"subType", readText⟩ v
  match Text.Base64.decode base64.toList with
  | none => .error (.wrongValue (text base64).described "base64 encoded bytes")
  | some bytes =>
    match Text.bytesOfHex subtype.toList with
    | none => .error (.wrongValue (text subtype).described "hexadecimal number as a string")
    | some [s] => .ok (binary s bytes)
    | some _ => .error (.wrongValue "byte array" "one byte subtype")

def readTimestamp (v : Value) : Except MappingFault Value := do
  let (t, i) ← readPair "TimestampBody" ⟨"t", readWord⟩ ⟨"i", readWord⟩ v
  .ok (timestamp t i)

def readRegex (v : Value) : Except MappingFault Value := do
  let (p, o) ← readPair "RegexBody" ⟨"pattern", readText⟩ ⟨"options", readText⟩ v
  .ok (ofRegexTexts p o)

/-- Why a text is no identifier of twelve bytes. -/
def oidFault (s : String) : MappingFault :=
  let bytes := s.toUTF8.data.toList
  let digits := bytes.takeWhile fun b => (Text.hexValue (Char.ofNat b.toNat)).isSome
  match bytes.drop digits.length with
  | b :: _ =>
    if bytes.length % 2 = 0 then .wrongHexDigit (Char.ofNat b.toNat) digits.length s
    else .wrongHexLength s
  | [] => .wrongHexLength s

/-- A collection and the identifier of a record in it. -/
def readPointer (v : Value) : Except MappingFault Value := do
  let (name, s) ← readPair "DbPointerBody" ⟨"$ref", readText⟩
    ⟨"$id", readSingle "ObjectId" ⟨"$oid", readText⟩⟩ v
  match oidBytes? s with
  | some bytes => .ok (pointer name bytes)
  | none => .error (oidFault s)

/-- The text of milliseconds, in a document or a list that holds nothing else. -/
def millisText? : Value → Option String
  | doc [(k, v)] => if k = "$numberLong" then v.readText.toOption else none
  | array [v] => v.readText.toOption
  | _ => none

/-- A date: milliseconds as text or as a number, or RFC 3339 text. -/
def readDate (v : Value) : Except MappingFault Value :=
  match millisText? v, v.readText, v.int? with
  | some s, _, _ => (readSpelled "i64 as a string" int64OfText? (text s)).map date
  | none, .ok s, _ => readSpelled "rfc3339 formatted utc datetime" ofDateText? (text s)
  | none, .error _, some ms => .ok (date (Int64.ofInt ms))
  | none, .error _, none => .error .noDate

/-- An end of the order of values, whose key holds a one. -/
def readBound (key : String) (bound v : Value) : Except MappingFault Value := do
  let n ← v.readByte
  if n = 1 then .ok bound
  else
    .error (.wrongValue (int32 (Int32.ofNat n.toNat)).described
      ("value of " ++ key ++ " should always be 1"))

def readUndefined (v : Value) : Except MappingFault Value := do
  if ← v.readBool then .ok undefined
  else .error (.wrongValue (bool false).described "$undefined should always be true")

/-- The keys of the extended form that decide alone, with the readers of what they hold. -/
def bodyReaders : Fields (Value → Except MappingFault Value) :=
  [("$oid", readOid),
   ("$symbol", fun v => v.readText.map symbol),
   ("$numberInt", readSpelled "32-bit signed integer as a string" ofInt32Text?),
   ("$numberLong", fun v =>
      (readSpelled "64-bit signed integer as a string" int64OfText? v).map int64),
   ("$numberDouble", readSpelled "64-bit signed integer as a string" ofDoubleText?),
   ("$numberDecimal", readSpelled "decimal128 as a string" ofDecimalText?),
   ("$numberDecimalBytes", readDecimalBytes),
   ("$binary", readBinary),
   ("$uuid", readSpelled
      "$uuid value does not follow RFC 4122 format regarding length and hyphens" ofUuidText?),
   ("$timestamp", readTimestamp),
   ("$regularExpression", readRegex),
   ("$dbPointer", readPointer),
   ("$date", readDate),
   ("$minKey", readBound "$minKey" minKey),
   ("$maxKey", readBound "$maxKey" maxKey),
   ("$undefined", readUndefined)]

/-- The document that a value is, and not one that stood for another value. -/
def readDocument (v : Value) : Except MappingFault Document :=
  match v.fields? with
  | some d => .ok d
  | none =>
    .error (.wrongType "map" ("expected document, found extended JSON data type: " ++ v.display))

/-! ## Resolving -/

mutual

/-- The value that a value of a record is or stands for. -/
def resolve : Value → Except MappingFault Value
  | .array xs => (resolveItems xs).map .array
  | .doc fs => resolveFields fs []
  | .scopedCode s scope => do
    let v ← resolveFields scope []
    (readDocument v).map (.scopedCode s)
  | .regex p o => .ok (ofRegexTexts p o)
  | v => .ok v

/-- The values that some items are or stand for. -/
def resolveItems : List Value → Except MappingFault (List Value)
  | [] => .ok []
  | x :: xs => do
    let v ← resolve x
    let vs ← resolveItems xs
    .ok (v :: vs)

/-- The value that the fields of a document make, with the fields `before` in front of them. -/
def resolveFields : List (String × Value) → Document → Except MappingFault Value
  | [], before => .ok (.doc before)
  | (k, v) :: rest, before =>
    if k = "$code" then
      match rest with
      | [] => v.readText.map .code
      | (other, scope) :: _ => do
        let s ← v.readText
        if other = "$scope" then
          let d ← resolve scope
          (readDocument d).map (.scopedCode s)
        else .error (.unknownField other ["$scope"])
    else if k = "$scope" then do
      let d ← resolve v
      let scope ← readDocument d
      match rest with
      | [] => .error (.missingField "$code")
      | (other, source) :: _ =>
        if other = "$code" then source.readText.map fun s => .scopedCode s scope
        else .error (.unknownField other ["$code"])
    else
      match bodyReaders.get? k with
      | some read => read v
      | none => do
        let w ← resolve v
        resolveFields rest (before.insert k w)

end

end Value

/-- The record that a record is once its values are resolved. -/
def Document.resolve (d : Document) : Except MappingFault Document := do
  let v ← Value.resolveFields d []
  v.readDocument

example : (Document.resolve [("v", .doc [("$numberInt", .text "5")])]).toOption.any
    (fun d => (Value.doc d).same (.doc [("v", .int32 5)])) := by decide +kernel

end DocQuery
