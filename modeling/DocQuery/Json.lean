/-
  JSON values and their text.

  1. `Json`: members of an object stay in order, repeated keys included;
  2. `Json.Fault`: the three ways in which a text fails to be read;
  3. `compact` and `pretty`: writing.
-/
import DocQuery.Number.Layout

namespace DocQuery

/-- A JSON value.  Integers fit in 64 bits, with or without a sign. -/
inductive Json where
  | null
  | bool (b : Bool)
  | int (n : Int)
  | float (x : Binary64)
  | str (s : String)
  | arr (items : List Json)
  | obj (members : List (String × Json))
deriving Repr, Inhabited

namespace Json

/-- Why a text could not be read. -/
inductive Fault where
  /-- not JSON -/
  | malformed
  /-- JSON of another shape than asked for -/
  | mismatch
  /-- the text ends too early -/
  | truncated
deriving DecidableEq, Repr

/-! ## Writing -/

/-- The escaped form of one character of a string. -/
def escape (c : Char) : List Char :=
  if c = '"' then ['\\', '"']
  else if c = '\\' then ['\\', '\\']
  else if c = '\n' then ['\\', 'n']
  else if c = '\t' then ['\\', 't']
  else if c = '\x0d' then ['\\', 'r']
  else if c = '\x08' then ['\\', 'b']
  else if c = '\x0c' then ['\\', 'f']
  else if c.toNat < 0x20 then
    ['\\', 'u', '0', '0', Text.digitChar (c.toNat / 16), Text.digitChar (c.toNat % 16)]
  else [c]

/-- A string between quotes. -/
def quote (s : String) : List Char :=
  '"' :: (s.toList.flatMap escape ++ ['"'])

/-- A number; what is no finite number has no form of its own and becomes `null`. -/
def floatChars (x : Binary64) : List Char :=
  if x.isFinite then (x.write .json).toList else "null".toList

/-- A comma in front of every item but the first. -/
def commas : List (List Char) → List Char
  | [] => []
  | [x] => x
  | x :: y :: rest => x ++ ',' :: commas (y :: rest)

mutual

/-- Text without blanks. -/
def chars : Json → List Char
  | .null => "null".toList
  | .bool b => if b then "true".toList else "false".toList
  | .int n => (Text.ofInt n).toList
  | .float x => floatChars x
  | .str s => quote s
  | .arr xs => '[' :: (commas (itemChars xs) ++ [']'])
  | .obj ms => '\x7b' :: (commas (memberChars ms) ++ ['\x7d'])

/-- Texts of some items. -/
def itemChars : List Json → List (List Char)
  | [] => []
  | x :: xs => x.chars :: itemChars xs

/-- Texts of some members. -/
def memberChars : List (String × Json) → List (List Char)
  | [] => []
  | (k, v) :: ms => (quote k ++ ':' :: v.chars) :: memberChars ms

end

/-- Text without blanks. -/
def compact (j : Json) : String :=
  String.ofList j.chars

/-! ## Writing on several lines -/

/-- A new line with two blanks for each level. -/
def newline (level : Nat) : List Char :=
  '\n' :: List.replicate (2 * level) ' '

/-- Items on lines of their own, between brackets; nothing between them if there are none. -/
def spread (open' close : Char) (level : Nat) : List (List Char) → List Char
  | [] => [open', close]
  | items =>
    open' :: (commas (items.map fun x => newline (level + 1) ++ x) ++ newline level ++ [close])

mutual

/-- Text with one item or member a line, indented by two blanks a level. -/
def prettyChars (level : Nat) : Json → List Char
  | .arr xs => spread '[' ']' level (prettyItems (level + 1) xs)
  | .obj ms => spread '\x7b' '\x7d' level (prettyMembers (level + 1) ms)
  | .null => "null".toList
  | .bool b => if b then "true".toList else "false".toList
  | .int n => (Text.ofInt n).toList
  | .float x => floatChars x
  | .str s => quote s

/-- Texts of some items. -/
def prettyItems (level : Nat) : List Json → List (List Char)
  | [] => []
  | x :: xs => x.prettyChars level :: prettyItems level xs

/-- Texts of some members. -/
def prettyMembers (level : Nat) : List (String × Json) → List (List Char)
  | [] => []
  | (k, v) :: ms => (quote k ++ ':' :: ' ' :: v.prettyChars level) :: prettyMembers level ms

end

/-- Text with one item or member a line. -/
def pretty (j : Json) : String :=
  String.ofList (j.prettyChars 0)

example : compact (.obj [("a", .arr [.int 1, .null]), ("b", .arr [])])
    = "\x7b\"a\":[1,null],\"b\":[]\x7d" := by decide +kernel

end Json

end DocQuery
