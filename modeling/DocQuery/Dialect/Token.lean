/-
  Tokens of the query dialect.

  1. `Token` and its structural text;
  2. `Fault`: why a text is no query;
  3. `tokens`: white space is dropped, and each token is as long as it can be.
-/
import DocQuery.Number.Reading
import DocQuery.Value.Structure

namespace DocQuery.Dialect

/-! ## Tokens -/

/-- Punctuation and operators. -/
inductive Symbol where
  | leftParen | rightParen | leftBracket | rightBracket | comma | dot | star
  | eq | ne | lt | le | gt | ge
deriving DecidableEq, Repr

def Symbol.text : Symbol → String
  | leftParen => "("
  | rightParen => ")"
  | leftBracket => "["
  | rightBracket => "]"
  | comma => ","
  | dot => "."
  | star => "*"
  | eq => "="
  | ne => "!="
  | lt => "<"
  | le => "<="
  | gt => ">"
  | ge => ">="

/-- A token. -/
inductive Token where
  | word (w : String)
  /-- a name behind an at sign, which belongs to it -/
  | parameter (name : String)
  /-- what stands between quotes -/
  | text (s : String)
  | integer (n : Int64)
  | decimal (x : Binary64)
  | symbol (s : Symbol)
deriving DecidableEq, Repr

namespace Token

/-- Structural text of a token. -/
def structural : Token → String
  | word w => "Ident(" ++ Text.quote w ++ ")"
  | parameter name => "Param(" ++ Text.quote name ++ ")"
  | text s => "Str(" ++ Text.quote s ++ ")"
  | integer n => "Num(" ++ (Value.int64 n).structural ++ ")"
  | decimal x => "Num(" ++ (Value.double x).structural ++ ")"
  | symbol s => "Sym(" ++ Text.quote s.text ++ ")"

/-- Structural text of a token that may be missing. -/
def structuralOption : Option Token → String
  | none => "None"
  | some t => "Some(" ++ t.structural ++ ")"

/-- Whether a token is a certain word, in any case. -/
def isWord (w : String) : Token → Bool
  | word v => Text.sameWord v w
  | _ => false

end Token

/-! ## Faults -/

/-- The functions of the dialect. -/
inductive Function where
  | startsWith | contains | isNull
deriving DecidableEq, Repr

namespace Function

/-- The word that calls a function. -/
def word : Function → String
  | startsWith => "STARTSWITH"
  | contains => "CONTAINS"
  | isNull => "IS_NULL"

/-- Name of a function in messages. -/
def name : Function → String
  | startsWith => "StartsWith"
  | contains => "Contains"
  | isNull => "IsNull"

def arity : Function → Nat
  | startsWith | contains => 2
  | isNull => 1

end Function

/-- Why a text is no query of the dialect. -/
inductive Fault where
  | danglingAt
  | badDecimal (text : String)
  | integerAboveRange (text : String)
  | integerBelowRange (text : String)
  | unterminatedText
  | unterminatedEscape
  | unexpectedChar (c : Char)
  | expectedWord (w : String) (got : Option Token)
  | expectedSymbol (s : Symbol) (got : Option Token)
  | expectedName (got : Option Token)
  | expectedOperand (got : Option Token)
  | expectedCountArgument (got : Option Token)
  | expectedProperty (got : Option Token)
  /-- the root without a field behind it -/
  | bareRoot (root : String)
  | expectedSortPath
  | wrongArity (f : Function)
  | trailing (t : Token)
deriving DecidableEq, Repr

def Fault.message : Fault → String
  | danglingAt => "dangling '@' in query"
  | badDecimal t => "bad number '" ++ t ++ "': invalid float literal"
  | integerAboveRange t => "bad number '" ++ t ++ "': number too large to fit in target type"
  | integerBelowRange t => "bad number '" ++ t ++ "': number too small to fit in target type"
  | unterminatedText => "unterminated string literal"
  | unterminatedEscape => "unterminated escape"
  | unexpectedChar c => "unexpected character '" ++ String.ofList [c] ++ "'"
  | expectedWord w got => "expected " ++ w ++ ", got " ++ Token.structuralOption got
  | expectedSymbol s got => "expected '" ++ s.text ++ "', got " ++ Token.structuralOption got
  | expectedName got => "expected identifier, got " ++ Token.structuralOption got
  | expectedOperand got => "expected operand, got " ++ Token.structuralOption got
  | expectedCountArgument got =>
    "COUNT expects a numeric argument, got " ++ Token.structuralOption got
  | expectedProperty got => "expected quoted property name, got " ++ Token.structuralOption got
  | bareRoot root => "bare root alias '" ++ root ++ "' is not a field"
  | expectedSortPath => "ORDER BY expects a field path"
  | wrongArity f => f.name ++ " takes " ++ Text.ofNat f.arity ++ " argument(s)"
  | trailing t => "unexpected trailing token " ++ t.structural

/-! ## Cutting a text into tokens -/

/-- What stands before the closing quote, and the text behind it.  A backslash takes the next
character as it is. -/
def scanText (quote : Char) : List Char → Except Fault (List Char × List Char)
  | [] => .error .unterminatedText
  | '\\' :: [] => .error .unterminatedEscape
  | '\\' :: c :: cs => (scanText quote cs).map fun (s, rest) => (c :: s, rest)
  | c :: cs =>
    if c = quote then .ok ([], cs)
    else (scanText quote cs).map fun (s, rest) => (c :: s, rest)

/-- Digits and points, perhaps behind a minus sign: with a point a decimal number, without one
an integer of 64 bits. -/
def numberToken (cs : List Char) : Except Fault Token :=
  if cs.contains '.' then
    match Binary64.ofChars? cs with
    | some x => .ok (.decimal x)
    | none => .error (.badDecimal (String.ofList cs))
  else
    match Text.readInt Int64.minValue.toInt Int64.maxValue.toInt cs with
    | .ok n => .ok (.integer (Int64.ofInt n))
    | .error .belowRange => .error (.integerBelowRange (String.ofList cs))
    | .error _ => .error (.integerAboveRange (String.ofList cs))

/-- What a number is made of behind its first character. -/
def isNumberChar (c : Char) : Bool :=
  Text.isDigit c || c == '.'

/-- Operators of two characters. -/
def doubleSymbol? : Char → Char → Option Symbol
  | '!', '=' => some .ne
  | '<', '>' => some .ne
  | '<', '=' => some .le
  | '>', '=' => some .ge
  | _, _ => none

/-- Symbols of one character. -/
def singleSymbol? : Char → Option Symbol
  | '(' => some .leftParen
  | ')' => some .rightParen
  | '[' => some .leftBracket
  | ']' => some .rightBracket
  | ',' => some .comma
  | '.' => some .dot
  | '*' => some .star
  | '=' => some .eq
  | '<' => some .lt
  | '>' => some .gt
  | _ => none

/-- The symbol at the front of a text. -/
def scanSymbol (c : Char) (cs : List Char) : Except Fault (Token × List Char) :=
  match cs.head?.bind (doubleSymbol? c) with
  | some s => .ok (.symbol s, cs.drop 1)
  | none =>
    match singleSymbol? c with
    | some s => .ok (.symbol s, cs)
    | none => .error (.unexpectedChar c)

/-- Whether a number begins with `c`. -/
def startsNumber (c : Char) (cs : List Char) : Bool :=
  Text.isDigit c || (c == '-' && (cs.head?.map Text.isDigit).getD false)

/-- The token at the front of a text that begins with `c`, and the text behind it. -/
def scan (c : Char) (cs : List Char) : Except Fault (Token × List Char) :=
  if Text.isLetter c || c == '_' then
    .ok (.word (String.ofList (c :: cs.takeWhile Text.isWordChar)), cs.dropWhile Text.isWordChar)
  else if c = '@' then
    let name := cs.takeWhile Text.isWordChar
    if name.isEmpty then .error .danglingAt
    else .ok (.parameter (String.ofList ('@' :: name)), cs.dropWhile Text.isWordChar)
  else if startsNumber c cs then
    (numberToken (c :: cs.takeWhile isNumberChar)).map fun t => (t, cs.dropWhile isNumberChar)
  else if c = '"' ∨ c = '\x27' then
    (scanText c cs).map fun (s, rest) => (.text (String.ofList s), rest)
  else scanSymbol c cs

theorem length_dropWhile_le {α : Type} (p : α → Bool) (xs : List α) :
    (xs.dropWhile p).length ≤ xs.length :=
  (List.dropWhile_sublist p).length_le

/-- Reading a quoted text leaves no more than there was, which is what the lexer recurses on. -/
theorem scanText_length {quote : Char} {cs s rest : List Char}
    (h : scanText quote cs = .ok (s, rest)) : rest.length ≤ cs.length := by
  fun_induction scanText quote cs generalizing s rest with
  | case1 => simp at h
  | case2 => simp at h
  | case3 c cs ih =>
    cases hs : scanText quote cs with
    | error e => simp [hs, Except.map] at h
    | ok p =>
      obtain ⟨u, v⟩ := p
      simp only [hs, Except.map, Except.ok.injEq, Prod.mk.injEq] at h
      obtain ⟨_, rfl⟩ := h
      have := ih hs
      simp only [List.length_cons]
      omega
  | case4 cs =>
    simp only [Except.ok.injEq, Prod.mk.injEq] at h
    obtain ⟨_, rfl⟩ := h
    simp
  | case5 c cs _ _ _ ih =>
    cases hs : scanText quote cs with
    | error e => simp [hs, Except.map] at h
    | ok p =>
      obtain ⟨u, v⟩ := p
      simp only [hs, Except.map, Except.ok.injEq, Prod.mk.injEq] at h
      obtain ⟨_, rfl⟩ := h
      have := ih hs
      simp only [List.length_cons]
      omega

/-- What is left behind a token is no longer than what stood behind its first character. -/
theorem scan_length {c : Char} {cs rest : List Char} {t : Token}
    (h : scan c cs = .ok (t, rest)) : rest.length ≤ cs.length := by
  unfold scan at h
  split at h
  · simp only [Except.ok.injEq, Prod.mk.injEq] at h
    obtain ⟨_, rfl⟩ := h
    exact length_dropWhile_le _ _
  · split at h
    · dsimp only at h
      split at h
      · simp at h
      · simp only [Except.ok.injEq, Prod.mk.injEq] at h
        obtain ⟨_, rfl⟩ := h
        exact length_dropWhile_le _ _
    · split at h
      · cases hn : numberToken (c :: cs.takeWhile isNumberChar) with
        | error e => simp [hn, Except.map] at h
        | ok t =>
          simp only [hn, Except.map, Except.ok.injEq, Prod.mk.injEq] at h
          obtain ⟨_, rfl⟩ := h
          exact length_dropWhile_le _ _
      · split at h
        · cases hs : scanText c cs with
          | error e => simp [hs, Except.map] at h
          | ok p =>
            obtain ⟨u, v⟩ := p
            simp only [hs, Except.map, Except.ok.injEq, Prod.mk.injEq] at h
            obtain ⟨_, rfl⟩ := h
            exact scanText_length hs
        · unfold scanSymbol at h
          split at h
          · simp only [Except.ok.injEq, Prod.mk.injEq] at h
            obtain ⟨_, rfl⟩ := h
            simp
          · split at h
            · simp only [Except.ok.injEq, Prod.mk.injEq] at h
              obtain ⟨_, rfl⟩ := h
              simp
            · simp at h

/-- The tokens of a text. -/
def tokens : List Char → Except Fault (List Token)
  | [] => .ok []
  | c :: cs =>
    if Text.isWhite c then tokens cs
    else
      match _h : scan c cs with
      | .error e => .error e
      | .ok (t, rest) => (tokens rest).map (t :: ·)
termination_by cs => cs.length
decreasing_by
  · simp
  · have := scan_length _h
    simp only [List.length_cons]
    omega

end DocQuery.Dialect
