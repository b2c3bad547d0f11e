/-
  Readable text of values.

  Texts stand between quotes but are not escaped, so the text is for people: two values may
  read the same.
-/
import DocQuery.Value
import DocQuery.Number.Layout
import DocQuery.Text.Base64
import DocQuery.Time.Instant

namespace DocQuery

mutual

/-- Readable text of a value. -/
def Value.display : Value → String
  | .null => "null"
  | .bool b => if b then "true" else "false"
  | .int32 n => Text.ofInt n.toInt
  | .int64 n => Text.ofInt n.toInt
  | .double x => x.write .plain
  | .decimal d => d.text
  | .text s => "\"" ++ s ++ "\""
  | .array xs => "[" ++ Text.join ", " (displayItems xs) ++ "]"
  | .doc [] => "\x7b\x7d"
  | .doc fs => "\x7b " ++ Text.join ", " (displayFields fs) ++ " \x7d"
  | .date ms => "DateTime(\"" ++ Time.readable ms.toInt ++ "\")"
  | .objectId bytes => "ObjectId(\"" ++ Text.hexOfBytes bytes ++ "\")"
  | .timestamp t i => "Timestamp(" ++ Text.ofNat t.toNat ++ ", " ++ Text.ofNat i.toNat ++ ")"
  | .binary s bytes =>
    "Binary(0x" ++ String.ofList (Text.hexChars s.toNat) ++ ", " ++ Text.Base64.text bytes ++ ")"
  | .regex p o => "/" ++ p ++ "/" ++ o
  | .code s => s
  | .scopedCode s _ => s
  | .symbol s => "Symbol(\"" ++ s ++ "\")"
  | .minKey => "MinKey"
  | .maxKey => "MaxKey"
  | .undefined => "undefined"
  | .pointer name bytes => "DbPointer(" ++ name ++ ", " ++ Text.hexOfBytes bytes ++ ")"

/-- Readable texts of some values. -/
def displayItems : List Value → List String
  | [] => []
  | x :: xs => x.display :: displayItems xs

/-- Readable texts of some fields. -/
def displayFields : List (String × Value) → List String
  | [] => []
  | (k, v) :: fs => ("\"" ++ k ++ "\": " ++ v.display) :: displayFields fs

end

example : Value.display (.doc [("a", .int32 1), ("b", .array [.null])])
    = "\x7b \"a\": 1, \"b\": [null] \x7d" := by decide +kernel

end DocQuery
