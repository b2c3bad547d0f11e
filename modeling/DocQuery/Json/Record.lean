/-
  Records read straight from JSON text.

  A record is an object with known fields, or an array of the same fields in their fixed order.
  It is read field by field while the text is scanned, so the first problem in the text decides
  the fault, be it in the grammar or in the shape.  Fields of an unknown name are skipped; of
  those only the grammar is looked at.

  1. values of the simple shapes, and refusing any other value;
  2. skipping a value;
  3. lists, named choices and records.
-/
import DocQuery.Fields
import DocQuery.Json.Reader

namespace DocQuery.Json

/-- A reader of one shape: the value at the front of a text, and the text behind it. -/
abbrev Reading (α : Type) := List Char → Except Fault (α × List Char)

/-! ## Simple shapes -/

/-- Refuse the value at the front of a text.  What is no container has to be well formed first;
a container is refused at its opening bracket. -/
def refuse {α : Type} (cs : List Char) : Except Fault (α × List Char) :=
  match skipBlanks cs with
  | [] => .error .truncated
  | c :: cs =>
    if c = '[' ∨ c = '\x7b' then .error .mismatch
    else
      match readScalar c cs with
      | .error e => .error e
      | .ok _ => .error .mismatch

/-- A number of 64 bits without sign. -/
def readWord64 (cs : List Char) : Except Fault (Nat × List Char) :=
  match skipBlanks cs with
  | [] => .error .truncated
  | c :: cs =>
    if c = '-' ∨ Text.isDigit c then
      match readScalar c cs with
      | .error e => .error e
      | .ok (.int n, cs) => if 0 ≤ n then .ok (n.toNat, cs) else .error .mismatch
      | .ok _ => .error .mismatch
    else refuse (c :: cs)

/-- A string. -/
def readText (cs : List Char) : Except Fault (String × List Char) :=
  match skipBlanks cs with
  | [] => .error .truncated
  | '"' :: cs => readString cs
  | cs => refuse cs

/-- `null`, which is read as nothing. -/
def readNull (cs : List Char) : Except Fault (Unit × List Char) :=
  match skipBlanks cs with
  | [] => .error .truncated
  | 'n' :: cs => readWord "ull".toList () cs
  | cs => refuse cs

/-- A value or `null`. -/
def readOptional {α : Type} (item : Reading α) (cs : List Char) :
    Except Fault (Option α × List Char) :=
  match skipBlanks cs with
  | 'n' :: cs => readWord "ull".toList none cs
  | cs => do
    let (a, cs) ← item cs
    .ok (some a, cs)

/-! ## Skipping -/

/-- One digit at least, and all that follow it. -/
def skipDigits : List Char → Except Fault (List Char)
  | c :: cs => if Text.isDigit c then .ok (cs.dropWhile Text.isDigit) else .error .malformed
  | [] => .error .malformed

/-- An exponent, if there is one. -/
def skipExponent : List Char → Except Fault (List Char)
  | c :: cs =>
    if c = 'e' ∨ c = 'E' then
      match cs with
      | '+' :: cs => skipDigits cs
      | '-' :: cs => skipDigits cs
      | cs => skipDigits cs
    else .ok (c :: cs)
  | [] => .ok []

/-- A fraction and an exponent, if there are any. -/
def skipFraction : List Char → Except Fault (List Char)
  | '.' :: cs => do skipExponent (← skipDigits cs)
  | cs => skipExponent cs

/-- A number of any size, behind its sign. -/
def skipNumber : List Char → Except Fault (List Char)
  | '0' :: c :: cs => if Text.isDigit c then .error .malformed else skipFraction (c :: cs)
  | cs => do skipFraction (← skipDigits cs)

/-- A string up to its closing quote, whatever code units its escapes name. -/
def skipChars : Nat → List Char → Except Fault (List Char)
  | 0, _ => .error .truncated
  | _ + 1, [] => .error .truncated
  | fuel + 1, c :: cs =>
    if c = '"' then .ok cs
    else if c = '\\' then
      match cs with
      | [] => .error .truncated
      | 'u' :: cs => do
        let (_, cs) ← readHex4 cs
        skipChars fuel cs
      | e :: cs => if (shortEscape e).isSome then skipChars fuel cs else .error .malformed
    else if c.toNat < 0x20 then .error .malformed
    else skipChars fuel cs

/-- Any value that is no container. -/
def skipScalar (c : Char) (cs : List Char) : Except Fault (List Char) :=
  if c = '"' then skipChars (cs.length + 1) cs
  else if c = '-' then skipNumber cs
  else if Text.isDigit c then skipNumber (c :: cs)
  else do
    let (_, cs) ← readScalar c cs
    .ok cs

/-- Whether a comma or, for the first entry, nothing stands before what follows; the text of
the entry, or none at the closing bracket. -/
def nextEntry (close : Char) (first : Bool) (cs : List Char) : Except Fault (Option (List Char)) :=
  match skipBlanks cs with
  | [] => .error .truncated
  | c :: cs =>
    if c = close then .ok none
    else if first then .ok (some (c :: cs))
    else if c = ',' then
      match skipBlanks cs with
      | [] => .error .truncated
      | d :: cs => if d = close then .error .malformed else .ok (some (d :: cs))
    else .error .malformed

/-- The text behind the closing bracket that a text begins with. -/
def behindClose (cs : List Char) : List Char :=
  (skipBlanks cs).drop 1

/-- The colon between a key and its value. -/
def readColon (cs : List Char) : Except Fault (List Char) :=
  match skipBlanks cs with
  | ':' :: cs => .ok cs
  | [] => .error .truncated
  | _ => .error .malformed

/-- The opening quote of a key. -/
def openKey : List Char → Except Fault (List Char)
  | '"' :: cs => .ok cs
  | [] => .error .truncated
  | _ => .error .malformed

mutual

/-- Any value, however deep.  `fuel` bounds the steps. -/
def skipValue (fuel : Nat) (cs : List Char) : Except Fault (List Char) :=
  match fuel with
  | 0 => .error .truncated
  | fuel + 1 =>
    match skipBlanks cs with
    | [] => .error .truncated
    | '[' :: cs => skipItems fuel true cs
    | '\x7b' :: cs => skipMembers fuel true cs
    | c :: cs => skipScalar c cs

/-- Items up to the closing bracket. -/
def skipItems (fuel : Nat) (first : Bool) (cs : List Char) : Except Fault (List Char) :=
  match fuel with
  | 0 => .error .truncated
  | fuel + 1 => do
    match ← nextEntry ']' first cs with
    | none => .ok (behindClose cs)
    | some cs => skipItems fuel false (← skipValue fuel cs)

/-- Members up to the closing brace. -/
def skipMembers (fuel : Nat) (first : Bool) (cs : List Char) : Except Fault (List Char) :=
  match fuel with
  | 0 => .error .truncated
  | fuel + 1 => do
    match ← nextEntry '\x7d' first cs with
    | none => .ok (behindClose cs)
    | some cs => do
      let cs ← openKey cs
      let cs ← skipChars (cs.length + 1) cs
      let cs ← readColon cs
      skipMembers fuel false (← skipValue fuel cs)

end

/-! ## Lists, choices and records -/

/-- The items of a list, behind its opening bracket. -/
def readEntries {α : Type} (item : Reading α) : Nat → Bool → Reading (List α)
  | 0, _, _ => .error .truncated
  | fuel + 1, first, cs => do
    match ← nextEntry ']' first cs with
    | none => .ok ([], behindClose cs)
    | some cs => do
      let (x, cs) ← item cs
      let (xs, cs) ← readEntries item fuel false cs
      .ok (x :: xs, cs)

/-- A list. -/
def readListOf {α : Type} (item : Reading α) (cs : List Char) :
    Except Fault (List α × List Char) :=
  match skipBlanks cs with
  | [] => .error .truncated
  | '[' :: cs => readEntries item (cs.length + 1) true cs
  | cs => refuse cs

/-- One of some names. -/
def named {α : Type} (names : Fields α) (name : String) : Except Fault α :=
  match names.get? name with
  | some a => .ok a
  | none => .error .mismatch

/-- A named choice: its name as a string, or an object with the name as its only key and `null`
under it.  What is neither is no value of this kind at all. -/
def readChoice {α : Type} (names : Fields α) (cs : List Char) : Except Fault (α × List Char) :=
  match skipBlanks cs with
  | [] => .error .truncated
  | '"' :: cs => do
    let (s, cs) ← readString cs
    .ok (← named names s, cs)
  | '\x7b' :: cs => do
    let cs ← openKey (skipBlanks cs)
    let (s, cs) ← readString cs
    let a ← named names s
    let cs ← readColon cs
    let (_, cs) ← readNull cs
    match skipBlanks cs with
    | '\x7d' :: cs => .ok (a, cs)
    | [] => .error .truncated
    | _ => .error .malformed
  | _ => .error .malformed

/-- The fields of a record in their fixed order, each with the reader that puts what it finds
into the record, and how many of them an array must hold. -/
structure RecordShape (σ : Type) where
  fields : Fields (σ → Reading σ)
  required : Nat

/-- The members of a record, behind its opening brace; `seen` are the fields met before. -/
def readFields {σ : Type} (fields : Fields (σ → Reading σ)) :
    Nat → Bool → List String → σ → Reading σ
  | 0, _, _, _, _ => .error .truncated
  | fuel + 1, first, seen, s, cs => do
    match ← nextEntry '\x7d' first cs with
    | none => .ok (s, behindClose cs)
    | some cs => do
      let cs ← openKey cs
      let (key, cs) ← readString cs
      match fields.get? key with
      | none => do
        let cs ← readColon cs
        readFields fields fuel false seen s (← skipValue (steps cs) cs)
      | some field =>
        if seen.contains key then .error .mismatch
        else do
          let cs ← readColon cs
          let (s, cs) ← field s cs
          readFields fields fuel false (key :: seen) s cs

/-- The items of an array that stands for a record, behind its opening bracket. -/
def readPositions {σ : Type} :
    List (String × (σ → Reading σ)) → Nat → Bool → σ → Reading σ
  | [], _, _, s, cs =>
    match skipBlanks cs with
    | [] => .error .truncated
    | ']' :: cs => .ok (s, cs)
    | _ => .error .malformed
  | (_, field) :: fields, required, first, s, cs => do
    match ← nextEntry ']' first cs with
    | none => if required = 0 then .ok (s, behindClose cs) else .error .mismatch
    | some cs => do
      let (s, cs) ← field s cs
      readPositions fields (required - 1) false s cs

/-- A record, which `finish` completes unless a field is missing. -/
def readRecord {σ α : Type} (shape : RecordShape σ) (start : σ) (finish : σ → Option α)
    (cs : List Char) : Except Fault (α × List Char) := do
  let (s, cs) ← match skipBlanks cs with
    | [] => .error .truncated
    | '\x7b' :: cs => readFields shape.fields (cs.length + 1) true [] start cs
    | '[' :: cs => readPositions shape.fields shape.required true start cs
    | cs => refuse cs
  match finish s with
  | none => .error .mismatch
  | some a => .ok (a, cs)

/-- Read a text that holds one value of a shape. -/
def readWhole {α : Type} (item : Reading α) (s : String) : Except Fault α := do
  let (a, rest) ← item s.toList
  atEnd rest
  .ok a

end DocQuery.Json
