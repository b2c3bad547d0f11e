/-
  Values as JSON, with types that JSON lacks in their extended form.

  1. `toJson`: every number plain, dates as milliseconds;
  2. `toRelaxed`: as people read it, dates as text;
  3. `ofJson?`: reading, where a key of the extended form makes the whole object that value.
-/
import DocQuery.Json
import DocQuery.Value.Extended

namespace DocQuery

/-! ## Writing -/

namespace Value

/-- An object with one member. -/
def tagged (key : String) (body : Json) : Json :=
  .obj [(key, body)]

def binaryJson (subtype : UInt8) (bytes : List UInt8) : Json :=
  tagged "$binary" (.obj [("base64", .str (Text.Base64.text bytes)),
    ("subType", .str (Text.hexOfBytes [subtype]))])

def oidJson (bytes : List UInt8) : Json :=
  tagged "$oid" (.str (Text.hexOfBytes bytes))

def numberLongJson (n : Int64) : Json :=
  tagged "$numberLong" (.str (Text.ofInt n.toInt))

/-- The extended form of the types that have the same one everywhere. -/
def extendedJson : Value → Json
  | decimal d => tagged "$numberDecimal" (.str d.text)
  | objectId bytes => oidJson bytes
  | timestamp t i =>
    tagged "$timestamp" (.obj [("t", .int t.toNat), ("i", .int i.toNat)])
  | binary s bytes => binaryJson s bytes
  | regex p o =>
    tagged "$regularExpression" (.obj [("pattern", .str p), ("options", .str o)])
  | code s => tagged "$code" (.str s)
  | symbol s => tagged "$symbol" (.str s)
  | minKey => tagged "$minKey" (.int 1)
  | maxKey => tagged "$maxKey" (.int 1)
  | undefined => tagged "$undefined" (.bool true)
  | date ms => tagged "$date" (numberLongJson ms)
  | pointer name bytes =>
    tagged "$dbPointer" (.obj [("$ref", .str name), ("$id", oidJson bytes)])
  | _ => .null

/-- Code with the members of its scope. -/
def scopedCodeJson (source : String) (scope : List (String × Json)) : Json :=
  .obj [("$code", .str source), ("$scope", .obj scope)]

mutual

/-- JSON form of a value.  Bytes without a subtype are a list of numbers. -/
def toJson : Value → Json
  | .null => .null
  | .bool b => .bool b
  | .int32 n => .int n.toInt
  | .int64 n => .int n.toInt
  | .double x => .float x
  | .text s => .str s
  | .array xs => .arr (itemsToJson xs)
  | .doc fs => .obj (fieldsToJson fs)
  | .binary s bytes =>
    if s = 0 then .arr (bytes.map fun b => .int b.toNat) else binaryJson s bytes
  | .scopedCode s scope => scopedCodeJson s (fieldsToJson scope)
  | v => extendedJson v

/-- JSON forms of some values. -/
def itemsToJson : List Value → List Json
  | [] => []
  | x :: xs => x.toJson :: itemsToJson xs

/-- JSON forms of some fields. -/
def fieldsToJson : List (String × Value) → List (String × Json)
  | [] => []
  | (k, v) :: fs => (k, v.toJson) :: fieldsToJson fs

end

/-- A number that JSON can write, or its name. -/
def relaxedDouble (x : Binary64) : Json :=
  if x.isFinite then .float x
  else
    let sign := if x.negative then "-" else ""
    tagged "$numberDouble" (.str (sign ++ if x.isNaN then "NaN" else "Infinity"))

/-- Dates as text where they have an RFC 3339 form, others as milliseconds. -/
def relaxedDate (ms : Int64) : Json :=
  tagged "$date" (match Time.rfc3339? ms.toInt with
    | some s => .str s
    | none => numberLongJson ms)

mutual

/-- JSON form of a value for people; the scope of code is for the code alone. -/
def toRelaxed : Value → Json
  | .null => .null
  | .bool b => .bool b
  | .int32 n => .int n.toInt
  | .int64 n => .int n.toInt
  | .double x => relaxedDouble x
  | .text s => .str s
  | .array xs => .arr (itemsToRelaxed xs)
  | .doc fs => .obj (fieldsToRelaxed fs)
  | .date ms => relaxedDate ms
  | .scopedCode s scope => scopedCodeJson s (fieldsToJson scope)
  | v => extendedJson v

/-- JSON forms of some values. -/
def itemsToRelaxed : List Value → List Json
  | [] => []
  | x :: xs => x.toRelaxed :: itemsToRelaxed xs

/-- JSON forms of some fields. -/
def fieldsToRelaxed : List (String × Value) → List (String × Json)
  | [] => []
  | (k, v) :: fs => (k, v.toRelaxed) :: fieldsToRelaxed fs

end

/-! ## Reading -/

/-- The named parts of an object, or the same parts as an array; nothing else and no repeats. -/
def parts? (names : List String) : Json → Option (List Json)
  | .arr xs => if xs.length = names.length then some xs else none
  | .obj ms =>
    if ms.length = names.length then
      names.mapM fun n => Fields.get? ms n
    else none
  | _ => none

def bodyText? : Json → Option String
  | .str s => some s
  | _ => none

/-- A number of 32 bits without sign. -/
def bodyWord? : Json → Option UInt32
  | .int n => if 0 ≤ n ∧ n < UInt32.size then some (UInt32.ofNat n.toNat) else none
  | _ => none

/-- A number of 8 bits without sign. -/
def bodyByte? : Json → Option UInt8
  | .int n => if 0 ≤ n ∧ n < UInt8.size then some (UInt8.ofNat n.toNat) else none
  | _ => none

/-- Bytes: a list of them, or a text for its encoding. -/
def bodyBytes? : Json → Option (List UInt8)
  | .str s => some s.toUTF8.data.toList
  | .arr xs => xs.mapM bodyByte?
  | _ => none

def ofDateBody? : Json → Option Value
  | .str s => ofDateText? s
  | .int n => if n ≤ Int64.maxValue.toInt then some (date (Int64.ofInt n)) else none
  | body => do
    match ← parts? ["$numberLong"] body with
    | [.str s] => (int64OfText? s).map date
    | _ => none

def ofBinaryBody? (body : Json) : Option Value := do
  match ← parts? ["base64", "subType"] body with
  | [.str b, .str s] => ofBinaryTexts? b s
  | _ => none

def ofTimestampBody? (body : Json) : Option Value := do
  match ← parts? ["t", "i"] body with
  | [t, i] => some (timestamp (← bodyWord? t) (← bodyWord? i))
  | _ => none

def ofRegexBody? (body : Json) : Option Value := do
  match ← parts? ["pattern", "options"] body with
  | [.str p, .str o] => some (ofRegexTexts p o)
  | _ => none

def ofPointerBody? (body : Json) : Option Value := do
  match ← parts? ["$ref", "$id"] body with
  | [.str name, id] =>
    match ← parts? ["$oid"] id with
    | [.str s] => (oidBytes? s).map (pointer name)
    | _ => none
  | _ => none

/-- The keys of the extended form that decide alone, with the readers of what they hold. -/
def extendedKeys : List (String × (Json → Option Value)) :=
  [("$oid", fun j => bodyText? j >>= ofOidText?),
   ("$symbol", fun j => (bodyText? j).map symbol),
   ("$numberInt", fun j => bodyText? j >>= ofInt32Text?),
   ("$numberLong", fun j => bodyText? j >>= fun s => (int64OfText? s).map int64),
   ("$numberDouble", fun j => bodyText? j >>= ofDoubleText?),
   ("$numberDecimal", fun j => bodyText? j >>= ofDecimalText?),
   ("$numberDecimalBytes", fun j => (bodyBytes? j >>= Decimal128.ofBytes?).map decimal),
   ("$binary", ofBinaryBody?),
   ("$uuid", fun j => bodyText? j >>= ofUuidText?),
   ("$timestamp", ofTimestampBody?),
   ("$regularExpression", ofRegexBody?),
   ("$dbPointer", ofPointerBody?),
   ("$date", ofDateBody?),
   ("$minKey", fun j => match j with | .int 1 => some minKey | _ => none),
   ("$maxKey", fun j => match j with | .int 1 => some maxKey | _ => none),
   ("$undefined", fun j => match j with | .bool true => some undefined | _ => none)]

/-- The narrowest signed type for an integer: 32 bits only for what is not negative. -/
def ofInteger? (n : Int) : Option Value :=
  if n < 0 then some (int64 (Int64.ofInt n))
  else if n ≤ Int32.maxValue.toInt then some (int32 (Int32.ofInt n))
  else if n ≤ Int64.maxValue.toInt then some (int64 (Int64.ofInt n))
  else none

mutual

/-- The value of a JSON value. -/
def ofJson? : Json → Option Value
  | .null => some .null
  | .bool b => some (.bool b)
  | .int n => ofInteger? n
  | .float x => some (.double x)
  | .str s => some (.text s)
  | .arr xs => (ofItems? xs).map .array
  | .obj ms => ofMembers? ms []

/-- The values of some items. -/
def ofItems? : List Json → Option (List Value)
  | [] => some []
  | x :: xs => do
    let v ← ofJson? x
    let vs ← ofItems? xs
    some (v :: vs)

/-- The value of an object, whose fields up to here are `before`.  The first key of the
extended form decides, and must be the last key; but code and its scope stand side by side. -/
def ofMembers? : List (String × Json) → Document → Option Value
  | [], before => some (.doc before)
  | (k, j) :: ms, before =>
    if k = "$code" then
      match ms with
      | [] => (bodyText? j).map code
      | [(other, scope)] => do
        let s ← bodyText? j
        let v ← ofJson? scope
        if other = "$scope" then (fields? v).map (scopedCode s) else none
      | _ => none
    else if k = "$scope" then
      match ms with
      | [(other, source)] => do
        let v ← ofJson? j
        let s ← bodyText? source
        if other = "$code" then (fields? v).map (scopedCode s) else none
      | _ => none
    else
      match Fields.get? extendedKeys k with
      | some body => if ms.isEmpty then body j else none
      | none => do
        let v ← ofJson? j
        ofMembers? ms (before.insert k v)

end

end Value

end DocQuery
