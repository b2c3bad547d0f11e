/-
  Reading JSON text.

  A reader takes the text from where it stands and gives a value and the text behind it, or the
  first fault.  Whether an early end or a wrong character is at fault is decided where reading
  stops, so the same faults serve readers that look for a certain shape.

  1. blanks and literals;
  2. strings, with escapes and surrogate pairs;
  3. numbers;
  4. arrays and objects, up to `maxDepth` inside each other;
  5. whole texts.
-/
import DocQuery.Json

namespace DocQuery.Json

/-- Containers a value may nest. -/
def maxDepth : Nat := 127

/-! ## Blanks and literals -/

def isBlank (c : Char) : Bool :=
  c == ' ' || c == '\n' || c == '\t' || c == '\x0d'

/-- The text behind leading blanks. -/
def skipBlanks : List Char → List Char
  | [] => []
  | c :: cs => if isBlank c then skipBlanks cs else c :: cs

/-- The rest of a word such as `true`, letter by letter. -/
def readWord {α : Type} (word : List Char) (value : α) :
    List Char → Except Fault (α × List Char) :=
  match word with
  | [] => fun cs => .ok (value, cs)
  | w :: ws => fun cs =>
    match cs with
    | [] => .error .truncated
    | c :: rest => if c = w then readWord ws value rest else .error .malformed

/-! ## Strings -/

/-- The number of four hexadecimal digits, if there are that many bytes left. -/
def readHex4 : List Char → Except Fault (Nat × List Char)
  | a :: b :: c :: d :: rest =>
    match Text.hexValue a, Text.hexValue b, Text.hexValue c, Text.hexValue d with
    | some a, some b, some c, some d => .ok (((a * 16 + b) * 16 + c) * 16 + d, rest)
    | _, _, _, _ => .error .malformed
  | cs =>
    if (String.ofList cs).utf8ByteSize < 4 then .error .truncated else .error .malformed

/-- The character of an escape without digits. -/
def shortEscape (c : Char) : Option Char :=
  if c = '"' ∨ c = '\\' ∨ c = '/' then some c
  else if c = 'b' then some '\x08'
  else if c = 'f' then some '\x0c'
  else if c = 'n' then some '\n'
  else if c = 'r' then some '\x0d'
  else if c = 't' then some '\t'
  else none

/-- A code unit that opens a surrogate pair. -/
def isHighSurrogate (n : Nat) : Bool := 0xD800 ≤ n && n ≤ 0xDBFF

/-- A code unit that closes a surrogate pair. -/
def isLowSurrogate (n : Nat) : Bool := 0xDC00 ≤ n && n ≤ 0xDFFF

/-- The character behind `\u`: one code unit, or two that make a pair. -/
def readUnicode (cs : List Char) : Except Fault (Char × List Char) := do
  let (n, cs) ← readHex4 cs
  if isLowSurrogate n then .error .malformed
  else if isHighSurrogate n then
    match cs with
    | [] => .error .truncated
    | '\\' :: [] => .error .truncated
    | '\\' :: 'u' :: cs => do
      let (m, cs) ← readHex4 cs
      if isLowSurrogate m then
        .ok (Char.ofNat (0x10000 + (n - 0xD800) * 1024 + (m - 0xDC00)), cs)
      else .error .malformed
    | _ => .error .malformed
  else .ok (Char.ofNat n, cs)

/-- The characters of a string up to its closing quote; `fuel` bounds their number. -/
def readChars : Nat → List Char → Except Fault (List Char × List Char)
  | 0, _ => .error .truncated
  | _ + 1, [] => .error .truncated
  | fuel + 1, c :: cs =>
    if c = '"' then .ok ([], cs)
    else if c = '\\' then
      match cs with
      | [] => .error .truncated
      | 'u' :: cs => do
        let (x, cs) ← readUnicode cs
        let (xs, cs) ← readChars fuel cs
        .ok (x :: xs, cs)
      | e :: cs =>
        match shortEscape e with
        | none => .error .malformed
        | some x => do
          let (xs, cs) ← readChars fuel cs
          .ok (x :: xs, cs)
    else if c.toNat < 0x20 then .error .malformed
    else do
      let (xs, cs) ← readChars fuel cs
      .ok (c :: xs, cs)

/-- A string, behind its opening quote. -/
def readString (cs : List Char) : Except Fault (String × List Char) := do
  let (xs, rest) ← readChars (cs.length + 1) cs
  .ok (String.ofList xs, rest)

/-! ## Numbers

  A number with a fraction, an exponent or more digits than 64 bits hold becomes a binary64
  number: the leading digits that fit in 64 bits, scaled by one power of ten.  The scaling
  rounds a second time, so the last bit may differ from that of the nearest number. -/

/-- The largest number of 64 bits. -/
def maxWord : Nat := UInt64.size - 1

/-- Digits gathered into a significand of 64 bits, as long as they fit; their number, and the
text behind them. -/
def gather : Nat → Nat → List Char → Nat × Nat × List Char
  | significand, count, c :: cs =>
    if Text.isDigit c then
      let next := significand * 10 + Text.digitValue c
      if next ≤ maxWord then gather next (count + 1) cs else (significand, count, c :: cs)
    else (significand, count, c :: cs)
  | significand, count, [] => (significand, count, [])

/-- Divide by a power of ten, at most `10 ^ 308` at a time. -/
def divPow10 (x : Binary64) (k : Nat) : Binary64 :=
  if h : k ≤ 308 then x.div (Binary64.ofDecimal false 1 k)
  else if x.isZero then x
  else divPow10 (x.div (Binary64.ofDecimal false 1 308)) (k - 308)
termination_by k
decreasing_by omega

/-- Scale a significand by a power of ten; what is beyond the largest number is malformed. -/
def scale (significand : Nat) (e : Int) : Except Fault Binary64 :=
  let x := Binary64.ofNat significand
  match e with
  | .negSucc n => .ok (divPow10 x (n + 1))
  | .ofNat n =>
    if 308 < n then
      if x.isZero then .ok x else .error .malformed
    else
      let y := x.mul (Binary64.ofDecimal false 1 n)
      if y.isInfinite then .error .malformed else .ok y

/-- A number with its sign. -/
def withSign (negative : Bool) (x : Binary64) : Json :=
  .float (if negative then x.neg else x)

/-- The exponent, behind its mark. -/
def readExponent (negative : Bool) (significand : Nat) (start : Int) (cs : List Char) :
    Except Fault (Json × List Char) := do
  let (down, cs) := match cs with
    | '+' :: rest => (false, rest)
    | '-' :: rest => (true, rest)
    | _ => (false, cs)
  match cs with
  | [] => .error .truncated
  | c :: rest =>
    if !Text.isDigit c then .error .malformed
    else
      let ds := c :: rest.takeWhile Text.isDigit
      let behind := rest.dropWhile Text.isDigit
      let e := Text.digitsValue ds
      if Int32.maxValue.toInt < e then
        if significand ≠ 0 ∧ !down then .error .malformed
        else .ok (withSign negative (Binary64.zero false), behind)
      else do
        let x ← scale significand (if down then start - e else start + e)
        .ok (withSign negative x, behind)

/-- What follows the digits: an exponent, or the end of the number. -/
def readTail (negative : Bool) (significand : Nat) (e : Int) :
    List Char → Except Fault (Json × List Char)
  | c :: cs =>
    if c = 'e' ∨ c = 'E' then readExponent negative significand e cs
    else do
      let x ← scale significand e
      .ok (withSign negative x, c :: cs)
  | [] => do
    let x ← scale significand e
    .ok (withSign negative x, [])

/-- The digits behind the point. -/
def readFraction (negative : Bool) (significand : Nat) (e : Int) (cs : List Char) :
    Except Fault (Json × List Char) :=
  match gather significand 0 cs with
  | (s, count, rest) =>
    match rest with
    | c :: _ =>
      if Text.isDigit c then readTail negative s (e - count) (rest.dropWhile Text.isDigit)
      else if count = 0 then .error .malformed
      else readTail negative s (e - count) rest
    | [] => if count = 0 then .error .truncated else readTail negative s (e - count) rest

/-- An integer of 64 bits.  Minus zero and what is below the range are binary64 numbers. -/
def integer (negative : Bool) (significand : Nat) : Json :=
  if !negative then .int significand
  else if significand = 0 ∨ Int64.minValue.toInt.natAbs < significand then
    .float (Binary64.ofNat significand).neg
  else .int (-(significand : Int))

/-- What follows the whole digits, of which `extra` more did not fit the significand. -/
def readPoint (negative : Bool) (significand extra : Nat) :
    List Char → Except Fault (Json × List Char)
  | c :: cs =>
    if c = '.' then readFraction negative significand extra cs
    else if c = 'e' ∨ c = 'E' then readExponent negative significand extra cs
    else if extra = 0 then .ok (integer negative significand, c :: cs)
    else do
      let x ← scale significand extra
      .ok (withSign negative x, c :: cs)
  | [] =>
    if extra = 0 then .ok (integer negative significand, [])
    else do
      let x ← scale significand extra
      .ok (withSign negative x, [])

/-- A number, behind its sign. -/
def readNumber (negative : Bool) : List Char → Except Fault (Json × List Char)
  | [] => .error .truncated
  | c :: cs =>
    if c = '0' then
      match cs with
      | d :: _ => if Text.isDigit d then .error .malformed else readPoint negative 0 0 cs
      | [] => readPoint negative 0 0 []
    else if Text.isDigit c then
      match gather (Text.digitValue c) 1 cs with
      | (s, _, rest) =>
        readPoint negative s (rest.takeWhile Text.isDigit).length (rest.dropWhile Text.isDigit)
    else .error .malformed

/-- Any value that is neither an array nor an object. -/
def readScalar (c : Char) (cs : List Char) : Except Fault (Json × List Char) :=
  if c = '"' then do
    let (s, cs) ← readString cs
    .ok (.str s, cs)
  else if c = 'n' then readWord "ull".toList .null cs
  else if c = 't' then readWord "rue".toList (.bool true) cs
  else if c = 'f' then readWord "alse".toList (.bool false) cs
  else if c = '-' then readNumber true cs
  else if Text.isDigit c then readNumber false (c :: cs)
  else .error .malformed

/-! ## Containers -/

/-- The key of a member and the colon behind it. -/
def readKey (cs : List Char) : Except Fault (String × List Char) := do
  let (k, cs) ← readString cs
  match skipBlanks cs with
  | ':' :: cs => .ok (k, cs)
  | [] => .error .truncated
  | _ => .error .malformed

mutual

/-- A value that nests at most `depth` containers.  `fuel` bounds the steps. -/
def readValue (fuel depth : Nat) (cs : List Char) : Except Fault (Json × List Char) :=
  match fuel with
  | 0 => .error .truncated
  | fuel + 1 =>
    match skipBlanks cs with
    | [] => .error .truncated
    | '[' :: cs =>
      match depth with
      | 0 => .error .malformed
      | depth + 1 => do
        let (xs, cs) ← readItems fuel depth true cs
        .ok (.arr xs, cs)
    | '\x7b' :: cs =>
      match depth with
      | 0 => .error .malformed
      | depth + 1 => do
        let (ms, cs) ← readMembers fuel depth true cs
        .ok (.obj ms, cs)
    | c :: cs => readScalar c cs

/-- Items up to the closing bracket; all but the first stand behind a comma. -/
def readItems (fuel depth : Nat) (first : Bool) (cs : List Char) :
    Except Fault (List Json × List Char) :=
  match fuel with
  | 0 => .error .truncated
  | fuel + 1 =>
    match skipBlanks cs with
    | [] => .error .truncated
    | ']' :: cs => .ok ([], cs)
    | c :: cs =>
      let here := if first then some (c :: cs) else if c = ',' then some cs else none
      match here with
      | none => .error .malformed
      | some cs =>
        match first, skipBlanks cs with
        | false, ']' :: _ => .error .malformed
        | _, cs => do
          let (x, cs) ← readValue fuel depth cs
          let (xs, cs) ← readItems fuel depth false cs
          .ok (x :: xs, cs)

/-- Members up to the closing brace; all but the first stand behind a comma. -/
def readMembers (fuel depth : Nat) (first : Bool) (cs : List Char) :
    Except Fault (List (String × Json) × List Char) :=
  match fuel with
  | 0 => .error .truncated
  | fuel + 1 =>
    match skipBlanks cs with
    | [] => .error .truncated
    | '\x7d' :: cs => .ok ([], cs)
    | c :: cs =>
      let here := if first then some (c :: cs) else if c = ',' then some cs else none
      match here with
      | none => .error .malformed
      | some cs =>
        match skipBlanks cs with
        | [] => .error .truncated
        | '"' :: cs => do
          let (k, cs) ← readKey cs
          let (v, cs) ← readValue fuel depth cs
          let (ms, cs) ← readMembers fuel depth false cs
          .ok ((k, v) :: ms, cs)
        | _ => .error .malformed

end

/-! ## Whole texts -/

/-- Steps that suffice for a text: at each of its characters a value, a list of items and a
list of members may begin. -/
def steps (cs : List Char) : Nat :=
  3 * cs.length + 3

/-- The value at the front of a text. -/
def readFront (cs : List Char) : Except Fault (Json × List Char) :=
  readValue (steps cs) maxDepth cs

/-- Nothing but blanks. -/
def atEnd (cs : List Char) : Except Fault Unit :=
  if (skipBlanks cs).isEmpty then .ok () else .error .malformed

/-- Read a text that holds one value, and then make something of the value.  A value of the
wrong shape is at fault before anything behind it. -/
def readAs {α : Type} (shape : Json → Option α) (s : String) : Except Fault α := do
  let (j, rest) ← readFront s.toList
  match shape j with
  | none => .error .mismatch
  | some a => do
    atEnd rest
    .ok a

/-- Read a text that holds one value. -/
def read (s : String) : Except Fault Json :=
  readAs some s

end DocQuery.Json
