/-
  Flat TOML: assignments of texts, truth values and whole numbers to keys.

  A document is a list of lines.  A line is blank, a comment, or an assignment with perhaps a
  comment behind it.  Keys are bare or quoted; texts stand in one of the four kinds of quotes.
  Tables, dotted keys, lists, fractions and dates are refused, and so is a repeated key.

  1. characters, blanks, comments and ends of lines;
  2. texts;
  3. numbers;
  4. assignments.
-/
import DocQuery.Fields
import DocQuery.Text.Digits

namespace DocQuery.Toml

/-- What a key can hold. -/
inductive Scalar where
  | text (s : String)
  | bool (b : Bool)
  | int (n : Int)
deriving DecidableEq, Repr

/-! ## Characters -/

/-- Blanks within a line. -/
def isBlank (c : Char) : Bool := c == ' ' || c == '\t'

/-- What may stand in comments and texts as it is: no control characters but tabs. -/
def isPrintable (c : Char) : Bool :=
  c == '\t' || (0x20 ≤ c.toNat && c.toNat != 0x7F)

/-- The text behind leading blanks. -/
def skipBlanks (cs : List Char) : List Char :=
  cs.dropWhile isBlank

/-- The text behind the end of a line, if it is next. -/
def lineEnd? : List Char → Option (List Char)
  | '\n' :: cs => some cs
  | '\x0d' :: '\n' :: cs => some cs
  | _ => none

/-- The text behind what may follow an assignment: blanks, a comment, and the end of the line
or of the text. -/
def endLine? (cs : List Char) : Option (List Char) :=
  let rest := match skipBlanks cs with
    | '#' :: cs => cs.dropWhile isPrintable
    | cs => cs
  match rest with
  | [] => some []
  | cs => lineEnd? cs

/-! ## Texts -/

/-- The value of some hexadecimal digits. -/
def hexNumber? (cs : List Char) : Option Nat :=
  cs.foldlM (fun n c => (Text.hexValue c).map (n * 16 + ·)) 0

/-- The character with a number. -/
def charOf? (n : Nat) : Option Char :=
  if n < 0xD800 ∨ (0xE000 ≤ n ∧ n < 0x110000) then some (Char.ofNat n) else none

/-- The character of an escape with `width` digits, and the text behind it. -/
def numberedEscape? (width : Nat) (cs : List Char) : Option (Char × List Char) := do
  if cs.length < width then none
  else do
    let n ← hexNumber? (cs.take width)
    let c ← charOf? n
    some (c, cs.drop width)

/-- The character behind a backslash, and the text behind it. -/
def escape? : List Char → Option (Char × List Char)
  | 'b' :: cs => some ('\x08', cs)
  | 't' :: cs => some ('\t', cs)
  | 'n' :: cs => some ('\n', cs)
  | 'f' :: cs => some ('\x0c', cs)
  | 'r' :: cs => some ('\x0d', cs)
  | 'e' :: cs => some ('\x1b', cs)
  | '"' :: cs => some ('"', cs)
  | '\\' :: cs => some ('\\', cs)
  | 'x' :: cs => numberedEscape? 2 cs
  | 'u' :: cs => numberedEscape? 4 cs
  | 'U' :: cs => numberedEscape? 8 cs
  | _ => none

/-- A text on one line up to its closing quote; backslashes count if `escapes`.  `fuel` bounds
its length. -/
def lineText? (quote : Char) (escapes : Bool) : Nat → List Char → Option (List Char × List Char)
  | 0, _ => none
  | _ + 1, [] => none
  | fuel + 1, c :: cs =>
    if c = quote then some ([], cs)
    else if escapes ∧ c = '\\' then do
      let (x, cs) ← escape? cs
      let (xs, cs) ← lineText? quote escapes fuel cs
      some (x :: xs, cs)
    else if isPrintable c then do
      let (xs, cs) ← lineText? quote escapes fuel cs
      some (c :: xs, cs)
    else none

/-- The text behind leading blanks and ends of lines. -/
def skipLines : List Char → List Char
  | [] => []
  | '\x0d' :: '\n' :: cs => skipLines cs
  | c :: cs => if isBlank c || c == '\n' then skipLines cs else c :: cs

/-- The text behind a backslash that hides the end of its line, and all blanks behind that. -/
def hiddenEnd? (cs : List Char) : Option (List Char) :=
  (lineEnd? (skipBlanks cs)).map skipLines

/-- The closing quotes of a text on several lines: three, with up to two more that belong to
the text.  How many belong to it, and the text behind. -/
def closing? (quote : Char) (cs : List Char) : Option (Nat × List Char) :=
  let n := (cs.takeWhile (· == quote)).length
  if n < 3 then none
  else if n ≤ 5 then some (n - 3, cs.drop n)
  else none

/-- A text on several lines up to its closing quotes.  The ends of its lines stay as they are
written.  `fuel` bounds its length. -/
def blockText? (quote : Char) (escapes : Bool) : Nat → List Char → Option (List Char × List Char)
  | 0, _ => none
  | _ + 1, [] => none
  | fuel + 1, c :: cs =>
    if [c, quote, quote] = (c :: cs).take 3 ∧ c = quote then do
      let (n, cs) ← closing? quote (c :: cs)
      some (List.replicate n quote, cs)
    else if escapes ∧ c = '\\' then
      match hiddenEnd? cs with
      | some cs => blockText? quote escapes fuel cs
      | none => do
        let (x, cs) ← escape? cs
        let (xs, cs) ← blockText? quote escapes fuel cs
        some (x :: xs, cs)
    else if isPrintable c || (lineEnd? (c :: cs)).isSome then do
      let (xs, cs) ← blockText? quote escapes fuel cs
      some (c :: xs, cs)
    else none

/-- A text on several lines, behind its opening quotes; an end of line there does not count. -/
def block? (quote : Char) (escapes : Bool) (cs : List Char) : Option (List Char × List Char) :=
  blockText? quote escapes (cs.length + 1) ((lineEnd? cs).getD cs)

/-! ## Numbers -/

/-- Digits of a base, with single underscores between them. -/
def digits? (base : Nat) (cs : List Char) : Option Nat :=
  let groups := Text.pieces (· == '_') cs
  if groups.any List.isEmpty then none
  else
    groups.flatten.foldlM (fun n c => do
      let d ← Text.hexValue c
      if d < base then some (n * base + d) else none) 0

/-- Decimal digits without a zero in front. -/
def decimal? (cs : List Char) : Option Nat :=
  match cs with
  | '0' :: _ :: _ => none
  | _ => digits? 10 cs

/-- A whole number. -/
def int? : List Char → Option Int
  | '0' :: 'x' :: cs => (digits? 16 cs).map Int.ofNat
  | '0' :: 'o' :: cs => (digits? 8 cs).map Int.ofNat
  | '0' :: 'b' :: cs => (digits? 2 cs).map Int.ofNat
  | '+' :: cs => (decimal? cs).map Int.ofNat
  | '-' :: cs => (decimal? cs).map fun n => -(n : Int)
  | cs => (decimal? cs).map Int.ofNat

/-! ## Assignments -/

/-- What a bare key is made of. -/
def isKeyChar (c : Char) : Bool := Text.isWordChar c || c == '-'

/-- What a bare value is made of. -/
def isValueChar (c : Char) : Bool := isKeyChar c || c == '+' || c == '.' || c == ':'

/-- A key, and the text behind it. -/
def key? : List Char → Option (String × List Char)
  | '"' :: cs => (lineText? '"' true (cs.length + 1) cs).map fun (k, cs) => (String.ofList k, cs)
  | '\x27' :: cs =>
    (lineText? '\x27' false (cs.length + 1) cs).map fun (k, cs) => (String.ofList k, cs)
  | cs =>
    let k := cs.takeWhile isKeyChar
    if k.isEmpty then none else some (String.ofList k, cs.dropWhile isKeyChar)

/-- A value, and the text behind it. -/
def value? : List Char → Option (Scalar × List Char)
  | '"' :: '"' :: '"' :: cs => (block? '"' true cs).map fun (s, cs) => (.text (String.ofList s), cs)
  | '\x27' :: '\x27' :: '\x27' :: cs =>
    (block? '\x27' false cs).map fun (s, cs) => (.text (String.ofList s), cs)
  | '"' :: cs =>
    (lineText? '"' true (cs.length + 1) cs).map fun (s, cs) => (.text (String.ofList s), cs)
  | '\x27' :: cs =>
    (lineText? '\x27' false (cs.length + 1) cs).map fun (s, cs) => (.text (String.ofList s), cs)
  | cs =>
    let word := cs.takeWhile isValueChar
    let rest := cs.dropWhile isValueChar
    if word = "true".toList then some (.bool true, rest)
    else if word = "false".toList then some (.bool false, rest)
    else (int? word).map fun n => (.int n, rest)

/-- An assignment, and the text behind its line. -/
def assignment? (cs : List Char) : Option ((String × Scalar) × List Char) := do
  let (k, cs) ← key? cs
  match skipBlanks cs with
  | '=' :: cs => do
    let (v, cs) ← value? (skipBlanks cs)
    let cs ← endLine? cs
    some ((k, v), cs)
  | _ => none

/-- The assignments of a text whose keys before are `seen`.  `fuel` bounds the lines. -/
def lines? (seen : List String) : Nat → List Char → Option (List (String × Scalar))
  | 0, _ => none
  | fuel + 1, cs =>
    match skipBlanks cs with
    | [] => some []
    | c :: cs =>
      if c = '#' ∨ c = '\n' ∨ c = '\x0d' then do
        let cs ← endLine? (c :: cs)
        lines? seen fuel cs
      else do
        let ((k, v), cs) ← assignment? (c :: cs)
        if seen.contains k then none
        else do
          let rest ← lines? (k :: seen) fuel cs
          some ((k, v) :: rest)

/-- The assignments of a document.  A byte order mark in front does not count. -/
def ofText? (s : String) : Option (List (String × Scalar)) :=
  let cs := match s.toList with
    | '\ufeff' :: cs => cs
    | cs => cs
  lines? [] (cs.length + 1) cs

example : ofText? "a = 0x1_f # b\n'c' = \"\\u00e9\"" = some [("a", .int 31), ("c", .text "é")] := by
  decide +kernel

end DocQuery.Toml
