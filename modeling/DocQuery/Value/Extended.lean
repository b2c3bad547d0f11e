/-
  The extended form of values.

  Types that JSON lacks are written as documents whose keys begin with a dollar sign.

  1. `extended?`: the fields of that document;
  2. the texts that stand in it, and the values they spell.
-/
import DocQuery.Value
import DocQuery.Number.Reading
import DocQuery.Text.Base64
import DocQuery.Time.Instant

namespace DocQuery

namespace Value

/-! ## Fields -/

/-- The fields of a document. -/
def fields? : Value → Option Document
  | doc fs => some fs
  | _ => none

/-- A number without sign, of the narrower type that holds it. -/
def ofWord (n : UInt32) : Value :=
  let n : Int := n.toNat
  if n ≤ Int32.maxValue.toInt then int32 (Int32.ofInt n) else int64 (Int64.ofInt n)

/-- The characters of a text in order of their numbers. -/
def sortedText (s : String) : String :=
  let insertChar (sorted : List Char) (c : Char) : List Char :=
    sorted.takeWhile (fun d => d.toNat ≤ c.toNat)
      ++ c :: sorted.dropWhile (fun d => d.toNat ≤ c.toNat)
  String.ofList (s.toList.foldl insertChar [])

/-- A pattern.  Its options are kept in order of their characters. -/
def ofRegexTexts (pattern options : String) : Value :=
  regex pattern (sortedText options)

/-- The extended form of a date: RFC 3339 text where there is one, else milliseconds. -/
def extendedDate (ms : Int64) : Value :=
  match Time.rfc3339? ms.toInt with
  | some s => text s
  | none => doc [("$numberLong", text (Text.ofInt ms.toInt))]

/-- The fields of the extended form, in which a decimal number stands by its bytes; none for a
type that JSON has, and for bytes without a subtype. -/
def extended? : Value → Option Document
  | decimal d => some [("$numberDecimalBytes", binary 0 d.bytes)]
  | date ms => some [("$date", extendedDate ms)]
  | objectId bytes => some [("$oid", text (Text.hexOfBytes bytes))]
  | timestamp t i => some [("$timestamp", doc [("t", ofWord t), ("i", ofWord i)])]
  | binary s bytes =>
    if s = 0 then none
    else
      some [("$binary", doc [("base64", text (Text.Base64.text bytes)),
        ("subType", text (Text.hexOfBytes [s]))])]
  | regex p o =>
    some [("$regularExpression", doc [("pattern", text p), ("options", text (sortedText o))])]
  | code s => some [("$code", text s)]
  | scopedCode s scope => some [("$code", text s), ("$scope", doc scope)]
  | symbol s => some [("$symbol", text s)]
  | minKey => some [("$minKey", int32 1)]
  | maxKey => some [("$maxKey", int32 1)]
  | undefined => some [("$undefined", bool true)]
  | pointer name bytes =>
    some [("$dbPointer", doc [("$ref", text name),
      ("$id", doc [("$oid", text (Text.hexOfBytes bytes))])])]
  | _ => none

/-! ## Texts -/

/-- The bytes of an identifier: twelve of them in hexadecimal. -/
def oidBytes? (s : String) : Option (List UInt8) := do
  let bytes ← Text.bytesOfHex s.toList
  if bytes.length = 12 then some bytes else none

def ofOidText? (s : String) : Option Value :=
  (oidBytes? s).map objectId

def ofInt32Text? (s : String) : Option Value :=
  ((Text.readInt Int32.minValue.toInt Int32.maxValue.toInt s.toList).toOption).map
    fun n => int32 (Int32.ofInt n)

/-- An integer of 64 bits. -/
def int64OfText? (s : String) : Option Int64 :=
  ((Text.readInt Int64.minValue.toInt Int64.maxValue.toInt s.toList).toOption).map Int64.ofInt

def ofDoubleText? (s : String) : Option Value :=
  (Binary64.ofChars? s.toList).map double

def ofDecimalText? (s : String) : Option Value :=
  (Decimal128.ofText? s).map decimal

def ofDateText? (s : String) : Option Value :=
  (Time.msOfRfc3339? s).map fun ms => date (Int64.ofInt ms)

/-- Bytes in base64 and a subtype of two hexadecimal digits. -/
def ofBinaryTexts? (base64 subtype : String) : Option Value := do
  let bytes ← Text.Base64.decode base64.toList
  match ← Text.bytesOfHex subtype.toList with
  | [s] => some (binary s bytes)
  | _ => none

/-- Thirty-two hexadecimal digits, or the same with hyphens in the usual places. -/
def uuidBytes? (cs : List Char) : Option (List UInt8) :=
  if cs.length = 32 then Text.bytesOfHex cs
  else if cs.length = 36 ∧ [8, 13, 18, 23].all (fun i => cs[i]? == some '-') then
    Text.bytesOfHex (cs.take 8 ++ (cs.drop 9).take 4 ++ (cs.drop 14).take 4 ++ (cs.drop 19).take 4
      ++ cs.drop 24)
  else none

/-- A universally unique identifier, perhaps in braces or behind `urn:uuid:` in either case. -/
def ofUuidText? (s : String) : Option Value := do
  let cs := s.toList
  let inner :=
    if cs.length = 38 ∧ cs.head? = some '\x7b' ∧ cs.getLast? = some '\x7d' then
      (cs.drop 1).take 36
    else if cs.length = 45 ∧ (cs.take 9).map Text.lowerChar = "urn:uuid:".toList then cs.drop 9
    else cs
  (uuidBytes? inner).map (binary 4)

end Value

end DocQuery
