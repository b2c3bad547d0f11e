/-
  Structural text of values.

  Every value names its type and every text is quoted, so the text tells values of different
  types apart.  It appears in messages about values of the wrong type.
-/
import DocQuery.Value
import DocQuery.Number.Layout
import DocQuery.Text.Quoted
import DocQuery.Time.Instant

namespace DocQuery

/-- Name of a binary subtype. -/
def subtypeName (s : UInt8) : String :=
  match s.toNat with
  | 0 => "Generic"
  | 1 => "Function"
  | 2 => "BinaryOld"
  | 3 => "UuidOld"
  | 4 => "Uuid"
  | 5 => "Md5"
  | 6 => "Encrypted"
  | 7 => "Column"
  | 8 => "Sensitive"
  | 9 => "Vector"
  | n => (if n < 128 then "Reserved(" else "UserDefined(") ++ Text.ofNat n ++ ")"

mutual

/-- Structural text of a value. -/
def Value.structural : Value → String
  | .null => "Null"
  | .bool b => if b then "Boolean(true)" else "Boolean(false)"
  | .int32 n => "Int32(" ++ Text.ofInt n.toInt ++ ")"
  | .int64 n => "Int64(" ++ Text.ofInt n.toInt ++ ")"
  | .double x => "Double(" ++ x.write .structural ++ ")"
  | .decimal d => "Decimal128(" ++ Text.hexOfBytes d.bytes ++ ")"
  | .text s => "String(" ++ Text.quote s ++ ")"
  | .array xs => "Array([" ++ Text.join ", " (structuralItems xs) ++ "])"
  | .doc fs => "Document(\x7b" ++ Text.join ", " (structuralFields fs) ++ "\x7d)"
  | .date ms => "DateTime(" ++ Time.readable ms.toInt ++ ")"
  | .objectId bytes => "ObjectId(\"" ++ Text.hexOfBytes bytes ++ "\")"
  | .timestamp t i =>
    "Timestamp \x7b time: " ++ Text.ofNat t.toNat ++ ", increment: " ++ Text.ofNat i.toNat
      ++ " \x7d"
  | .binary s bytes =>
    "Binary \x7b subtype: " ++ subtypeName s ++ ", bytes: ["
      ++ Text.join ", " (bytes.map fun b => Text.ofNat b.toNat) ++ "] \x7d"
  | .regex p o => "Regex \x7b pattern: " ++ Text.quote p ++ ", options: " ++ Text.quote o ++ " \x7d"
  | .code s => "JavaScriptCode(" ++ Text.quote s ++ ")"
  | .scopedCode s scope =>
    "JavaScriptCodeWithScope \x7b code: " ++ Text.quote s ++ ", scope: Document(\x7b"
      ++ Text.join ", " (structuralFields scope) ++ "\x7d) \x7d"
  | .symbol s => "Symbol(" ++ Text.quote s ++ ")"
  | .minKey => "MinKey"
  | .maxKey => "MaxKey"
  | .undefined => "Undefined"
  | .pointer name bytes =>
    "DbPointer \x7b namespace: " ++ Text.quote name ++ ", id: ObjectId(\""
      ++ Text.hexOfBytes bytes ++ "\") \x7d"

/-- Structural texts of some values. -/
def structuralItems : List Value → List String
  | [] => []
  | x :: xs => x.structural :: structuralItems xs

/-- Structural texts of some fields. -/
def structuralFields : List (String × Value) → List String
  | [] => []
  | (k, v) :: fs => (Text.quote k ++ ": " ++ v.structural) :: structuralFields fs

end

/-- Structural text of a value that may be missing. -/
def structuralOption : Option Value → String
  | none => "None"
  | some v => "Some(" ++ v.structural ++ ")"

end DocQuery
