/-
  White space and letters.

  Names, ids and filter fields are refused when they hold nothing but white space, and lists of
  sort keys are trimmed; both go by the Unicode property `White_Space`.  Case is folded for
  ASCII letters only, because keywords, directions and flags are ASCII words.

  1. `isWhite`, `trim`, `isBlank`;
  2. `lower` and `sameWord`;
  3. `pieces` and `join`: cutting at a separator and putting the pieces back;
  4. `startsWith` and `contains`: one text at the front of another, or anywhere in it.
-/

namespace DocQuery.Text

/-! ## White space -/

/-- The Unicode property `White_Space`. -/
def isWhite (c : Char) : Bool :=
  let n := c.toNat
  (9 ≤ n && n ≤ 13) || n == 0x20 || n == 0x85 || n == 0xA0 || n == 0x1680
    || (0x2000 ≤ n && n ≤ 0x200A) || n == 0x2028 || n == 0x2029 || n == 0x202F
    || n == 0x205F || n == 0x3000

/-- Drop the white space at both ends. -/
def trimChars (cs : List Char) : List Char :=
  ((cs.dropWhile isWhite).reverse.dropWhile isWhite).reverse

/-- Drop the white space at both ends. -/
def trim (s : String) : String :=
  String.ofList (trimChars s.toList)

/-- Nothing but white space, or nothing at all. -/
def isBlank (s : String) : Bool :=
  s.toList.all isWhite

/-! ## Letters -/

/-- Fold ASCII capitals. -/
def lowerChar (c : Char) : Char :=
  if 'A' ≤ c ∧ c ≤ 'Z' then Char.ofNat (c.toNat + 32) else c

/-- Fold ASCII capitals. -/
def lower (s : String) : String :=
  String.ofList (s.toList.map lowerChar)

/-- Equal up to the case of ASCII letters. -/
def sameWord (a b : String) : Bool :=
  lower a == lower b

/-- An ASCII letter. -/
def isLetter (c : Char) : Bool :=
  ('a' ≤ c && c ≤ 'z') || ('A' ≤ c && c ≤ 'Z')

/-- An ASCII digit. -/
def isDigit (c : Char) : Bool :=
  '0' ≤ c && c ≤ '9'

/-- A letter, a digit or an underscore: what a word of the dialect is made of. -/
def isWordChar (c : Char) : Bool :=
  isLetter c || isDigit c || c == '_'

/-! ## Cutting and joining -/

/-- The stretches between the characters that satisfy `cut`; one more than there are cuts. -/
def pieces (cut : Char → Bool) : List Char → List (List Char)
  | [] => [[]]
  | c :: cs =>
    if cut c then [] :: pieces cut cs
    else
      match pieces cut cs with
      | [] => [[c]]
      | p :: ps => (c :: p) :: ps

/-- The stretches of a text between the characters that satisfy `cut`. -/
def split (cut : Char → Bool) (s : String) : List String :=
  (pieces cut s.toList).map String.ofList

/-- Put texts together with `sep` between neighbours. -/
def join (sep : String) : List String → String
  | [] => ""
  | [s] => s
  | s :: t :: rest => s ++ sep ++ join sep (t :: rest)

/-! ## One text in another -/

/-- Whether `part` stands somewhere in a text. -/
def containsChars (part : List Char) : List Char → Bool
  | [] => part.isEmpty
  | c :: cs => part.isPrefixOf (c :: cs) || containsChars part cs

/-- Whether `s` begins with `beginning`. -/
def startsWith (s beginning : String) : Bool :=
  beginning.toList.isPrefixOf s.toList

/-- Whether `part` stands somewhere in `s`. -/
def contains (s part : String) : Bool :=
  containsChars part.toList s.toList

theorem pieces_ne_nil (cut : Char → Bool) (cs : List Char) : pieces cut cs ≠ [] := by
  cases cs with
  | nil => simp [pieces]
  | cons c cs =>
    unfold pieces
    split
    · simp
    · split <;> simp

example : split (· == '.') "a..b" = ["a", "", "b"] := by decide
example : contains "abc" "bc" = true ∧ contains "abc" "" = true ∧ contains "" "a" = false := by
  decide
example : trim " a b\t" = "a b" := by decide

end DocQuery.Text
