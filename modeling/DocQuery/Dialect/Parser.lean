/-
  Reading queries of the dialect.

  A select query is `SELECT * | COUNT(n) AS name FROM ROOT name`, then perhaps
  `WHERE condition`, then perhaps `ORDER BY path [ASC | DESC], …`.  `NOT` binds closer than
  `AND`, and `AND` closer than `OR`; both group to the left.  Words are read in any case, but
  the name of the root as it was given.

  A reader takes tokens from the front and gives back those behind what it read.
-/
import DocQuery.Dialect.Select

namespace DocQuery.Dialect

/-! ## Single tokens -/

/-- The tokens behind a certain word, if it is next. -/
def word? (w : String) : List Token → Option (List Token)
  | t :: ts => if t.isWord w then some ts else none
  | [] => none

/-- The tokens behind a certain symbol, if it is next. -/
def symbol? (s : Symbol) : List Token → Option (List Token)
  | t :: ts => if t = .symbol s then some ts else none
  | [] => none

def expectWord (w : String) (ts : List Token) : Except Fault (List Token) :=
  match word? w ts with
  | some ts => .ok ts
  | none => .error (.expectedWord w ts.head?)

def expectSymbol (s : Symbol) (ts : List Token) : Except Fault (List Token) :=
  match symbol? s ts with
  | some ts => .ok ts
  | none => .error (.expectedSymbol s ts.head?)

/-- Any word. -/
def readName : List Token → Except Fault (String × List Token)
  | .word w :: ts => .ok (w, ts)
  | ts => .error (.expectedName ts.head?)

/-! ## Operands -/

/-- The segments of a path, behind the root. -/
def readPathTail : List Token → Except Fault (List String × List Token)
  | .symbol .dot :: .word w :: ts => do
    let (path, ts) ← readPathTail ts
    .ok (w :: path, ts)
  | .symbol .dot :: ts => .error (.expectedName ts.head?)
  | .symbol .leftBracket :: .text s :: .symbol .rightBracket :: ts => do
    let (path, ts) ← readPathTail ts
    .ok (s :: path, ts)
  | .symbol .leftBracket :: .text _ :: ts => .error (.expectedSymbol .rightBracket ts.head?)
  | .symbol .leftBracket :: ts => .error (.expectedProperty ts.head?)
  | ts => .ok ([], ts)

/-- A path, behind the root. -/
def readPath (root : String) (ts : List Token) : Except Fault (Operand × List Token) := do
  let (segments, ts) ← readPathTail ts
  if segments.isEmpty then .error (.bareRoot root) else .ok (.path segments, ts)

/-- An operand.  The words for truth values and null come before the name of the root. -/
def readOperand (root : String) : List Token → Except Fault (Operand × List Token)
  | .parameter p :: ts => .ok (.parameter p, ts)
  | .text s :: ts => .ok (.literal (.text s), ts)
  | .integer n :: ts => .ok (.literal (.int64 n), ts)
  | .decimal x :: ts => .ok (.literal (.double x), ts)
  | .word w :: ts =>
    if Text.sameWord w "true" then .ok (.literal (.bool true), ts)
    else if Text.sameWord w "false" then .ok (.literal (.bool false), ts)
    else if Text.sameWord w "null" then .ok (.literal .null, ts)
    else if w = root then readPath root ts
    else .error (.expectedOperand (some (.word w)))
  | ts => .error (.expectedOperand ts.head?)

/-- Operands between commas, and the closing parenthesis.  `fuel` bounds their number. -/
def readOperands (root : String) : Nat → List Token → Except Fault (List Operand × List Token)
  | 0, ts => .error (.expectedOperand ts.head?)
  | fuel + 1, ts => do
    let (o, ts) ← readOperand root ts
    match symbol? .rightParen ts with
    | some ts => .ok ([o], ts)
    | none => do
      let ts ← expectSymbol .comma ts
      let (os, ts) ← readOperands root fuel ts
      .ok (o :: os, ts)

/-- A list of operands, behind its opening parenthesis. -/
def readOperandList (root : String) (ts : List Token) : Except Fault (List Operand × List Token) :=
  match symbol? .rightParen ts with
  | some ts => .ok ([], ts)
  | none => readOperands root (ts.length + 1) ts

/-! ## Conditions -/

/-- The function that a word calls, if a parenthesis follows it. -/
def function? : List Token → Option (Function × List Token)
  | .word w :: .symbol .leftParen :: ts =>
    if Text.sameWord w Function.startsWith.word then some (.startsWith, ts)
    else if Text.sameWord w Function.contains.word then some (.contains, ts)
    else if Text.sameWord w Function.isNull.word then some (.isNull, ts)
    else none
  | _ => none

/-- The comparison of a symbol. -/
def comparison? : List Token → Option (Comparison × List Token)
  | .symbol .eq :: ts => some (.eq, ts)
  | .symbol .ne :: ts => some (.ne, ts)
  | .symbol .gt :: ts => some (.gt, ts)
  | .symbol .ge :: ts => some (.ge, ts)
  | .symbol .lt :: ts => some (.lt, ts)
  | .symbol .le :: ts => some (.le, ts)
  | _ => none

/-- A call, behind its opening parenthesis. -/
def readCall (root : String) (f : Function) (ts : List Token) :
    Except Fault (Condition × List Token) := do
  let (arguments, ts) ← readOperandList root ts
  if arguments.length = f.arity then .ok (.call f arguments, ts) else .error (.wrongArity f)

/-- A condition that begins with an operand. -/
def readTest (root : String) (ts : List Token) : Except Fault (Condition × List Token) := do
  let (left, ts) ← readOperand root ts
  match word? "IN" ts with
  | some ts => do
    let ts ← expectSymbol .leftParen ts
    let (values, ts) ← readOperandList root ts
    .ok (.oneOf left values, ts)
  | none =>
    match comparison? ts with
    | some (op, ts) => do
      let (right, ts) ← readOperand root ts
      .ok (.compare left op right, ts)
    | none => .ok (.operand left, ts)

mutual

/-- Conditions between `OR`.  In these readers `fuel` bounds the depth of the calls. -/
def readOr (root : String) (fuel : Nat) (ts : List Token) :
    Except Fault (Condition × List Token) :=
  match fuel with
  | 0 => .error (.expectedOperand ts.head?)
  | fuel + 1 => do
    let (c, ts) ← readAnd root fuel ts
    readOrTail root fuel c ts

/-- What stands behind a first condition, with `OR` in front of each more. -/
def readOrTail (root : String) (fuel : Nat) (left : Condition) (ts : List Token) :
    Except Fault (Condition × List Token) :=
  match fuel with
  | 0 => .error (.expectedOperand ts.head?)
  | fuel + 1 =>
    match word? "OR" ts with
    | none => .ok (left, ts)
    | some ts => do
      let (c, ts) ← readAnd root fuel ts
      readOrTail root fuel (.or left c) ts

/-- Conditions between `AND`. -/
def readAnd (root : String) (fuel : Nat) (ts : List Token) :
    Except Fault (Condition × List Token) :=
  match fuel with
  | 0 => .error (.expectedOperand ts.head?)
  | fuel + 1 => do
    let (c, ts) ← readNot root fuel ts
    readAndTail root fuel c ts

/-- What stands behind a first condition, with `AND` in front of each more. -/
def readAndTail (root : String) (fuel : Nat) (left : Condition) (ts : List Token) :
    Except Fault (Condition × List Token) :=
  match fuel with
  | 0 => .error (.expectedOperand ts.head?)
  | fuel + 1 =>
    match word? "AND" ts with
    | none => .ok (left, ts)
    | some ts => do
      let (c, ts) ← readNot root fuel ts
      readAndTail root fuel (.and left c) ts

/-- A condition with any number of `NOT` in front. -/
def readNot (root : String) (fuel : Nat) (ts : List Token) :
    Except Fault (Condition × List Token) :=
  match fuel with
  | 0 => .error (.expectedOperand ts.head?)
  | fuel + 1 =>
    match word? "NOT" ts with
    | some ts => do
      let (c, ts) ← readNot root fuel ts
      .ok (.not c, ts)
    | none => readAtom root fuel ts

/-- A condition in parentheses, a call or a test. -/
def readAtom (root : String) (fuel : Nat) (ts : List Token) :
    Except Fault (Condition × List Token) :=
  match fuel with
  | 0 => .error (.expectedOperand ts.head?)
  | fuel + 1 =>
    match symbol? .leftParen ts with
    | some ts => do
      let (c, ts) ← readOr root fuel ts
      let ts ← expectSymbol .rightParen ts
      .ok (c, ts)
    | none =>
      match function? ts with
      | some (f, ts) => readCall root f ts
      | none => readTest root ts

end

/-- Calls that suffice for some tokens: four below each other for every parenthesis. -/
def conditionFuel (ts : List Token) : Nat :=
  4 * ts.length + 5

/-- A condition. -/
def readCondition (root : String) (ts : List Token) : Except Fault (Condition × List Token) :=
  readOr root (conditionFuel ts) ts

/-! ## Queries -/

/-- What is delivered. -/
def readProjection (ts : List Token) : Except Fault (Projection × List Token) :=
  match symbol? .star ts with
  | some ts => .ok (.all, ts)
  | none => do
    let ts ← expectWord "COUNT" ts
    let ts ← expectSymbol .leftParen ts
    let ts ← match ts with
      | .integer _ :: ts => .ok ts
      | .decimal _ :: ts => .ok ts
      | ts => .error (.expectedCountArgument ts.head?)
    let ts ← expectSymbol .rightParen ts
    let ts ← expectWord "AS" ts
    let (n, ts) ← readName ts
    .ok (.count n, ts)

/-- A direction; ascending where none is given. -/
def readDirection (ts : List Token) : Direction × List Token :=
  match word? "DESC" ts with
  | some ts => (.descending, ts)
  | none =>
    match word? "ASC" ts with
    | some ts => (.ascending, ts)
    | none => (.ascending, ts)

/-- Paths with directions, between commas.  `fuel` bounds their number. -/
def readOrderEntries (root : String) :
    Nat → List Token → Except Fault (List (List String × Direction) × List Token)
  | 0, ts => .error (.expectedOperand ts.head?)
  | fuel + 1, ts => do
    let (o, ts) ← readOperand root ts
    match o with
    | .path segments =>
      let (d, ts) := readDirection ts
      match symbol? .comma ts with
      | none => .ok ([(segments, d)], ts)
      | some ts => do
        let (rest, ts) ← readOrderEntries root fuel ts
        .ok ((segments, d) :: rest, ts)
    | _ => .error .expectedSortPath

/-- The condition, if there is one. -/
def readWhere (root : String) (ts : List Token) :
    Except Fault (Option Condition × List Token) :=
  match word? "WHERE" ts with
  | none => .ok (none, ts)
  | some ts => do
    let (c, ts) ← readCondition root ts
    .ok (some c, ts)

/-- The order, if there is one. -/
def readOrder (root : String) (ts : List Token) :
    Except Fault (List (List String × Direction) × List Token) :=
  match word? "ORDER" ts with
  | none => .ok ([], ts)
  | some ts => do
    let ts ← expectWord "BY" ts
    readOrderEntries root (ts.length + 1) ts

/-- Read the tokens of a query. -/
def Select.ofTokens (ts : List Token) : Except Fault Select := do
  let ts ← expectWord "SELECT" ts
  let (projection, ts) ← readProjection ts
  let ts ← expectWord "FROM" ts
  let ts ← expectWord "ROOT" ts
  let (root, ts) ← readName ts
  let (condition, ts) ← readWhere root ts
  let (order, ts) ← readOrder root ts
  match ts with
  | [] => .ok ⟨projection, condition, order⟩
  | t :: _ => .error (.trailing t)

/-- Read the text of a query. -/
def Select.ofText (s : String) : Except Fault Select := do
  Select.ofTokens (← tokens s.toList)

end DocQuery.Dialect
