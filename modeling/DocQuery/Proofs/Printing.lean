/-
  Printed queries.

  A query of the dialect can be printed: with a word, a mark or an operand for everything in it, and
  with parentheses only around what binds more loosely than its place allows.  What is printed are
  lexemes, and a lexeme may be written in more than one way: words of the dialect in any case, texts
  between either quotes.  Between two lexemes stands a blank, which may be missing next to a
  parenthesis, a bracket or a comma.

  Printing is a relation, because a text can be laid out in many ways and all of them have to be
  read back.  The blanks are where it could go wrong: without one, two words would be read as a
  third.  So the relation allows a blank to be missing only beside a mark, and the lemma for each
  lexeme asks of what follows that it is apart, which a blank, a mark and the end all are.

  1. `Lexeme` and `Lexeme.Written`: what is printed, and how it is written;
  2. `Laid`: lexemes one behind the other;
  3. `Select.lexemes`: the lexemes of a query; `Select.print`: one way to write them;
  4. `tokens_written`: what is written is cut into a token that stands for the lexeme, if what
     follows is set apart from it;
  5. `tokens_laid`: so the tokens of a printed query stand for its lexemes, one for one.
-/
import DocQuery.Proofs.Grammar
import DocQuery.Proofs.Outcome
import DocQuery.Proofs.Transcription

namespace DocQuery.Text

/-! ## Words and numerals -/

/-- The characters of words stay what they are when capitals are folded. -/
theorem wordChar_lowerChar (c : Char) : isLetter (lowerChar c) = isLetter c
    ∧ isWordChar (lowerChar c) = isWordChar c ∧ (lowerChar c == '_') = (c == '_') := by
  rw [lowerChar]
  split
  · rename_i hc
    -- one of the twenty-six capitals
    have hall : ∀ n < 91, 65 ≤ n → isLetter (Char.ofNat (n + 32)) = isLetter (Char.ofNat n)
        ∧ isWordChar (Char.ofNat (n + 32)) = isWordChar (Char.ofNat n)
        ∧ (Char.ofNat (n + 32) == '_') = (Char.ofNat n == '_') := by decide
    have hlow : 65 ≤ c.toNat := toNat_le_of_le hc.1
    have hhigh : c.toNat ≤ 90 := toNat_le_of_le hc.2
    have hletter := hall c.toNat (by omega) hlow
    rwa [Char.ofNat_toNat] at hletter
  · exact ⟨rfl, rfl, rfl⟩

/-- A digit begins no word. -/
theorem isLetter_of_isDigit {c : Char} (h : isDigit c = true) :
    (isLetter c || c == '_') = false := by
  have hall : ∀ n < 58, 48 ≤ n →
      (isLetter (Char.ofNat n) || Char.ofNat n == '_') = false := by decide
  rw [isDigit, Bool.and_eq_true, decide_eq_true_eq, decide_eq_true_eq] at h
  have hlow : 48 ≤ c.toNat := toNat_le_of_le h.1
  have hhigh : c.toNat ≤ 57 := toNat_le_of_le h.2
  have hnot := hall c.toNat (by omega) hlow
  rwa [Char.ofNat_toNat] at hnot

/-- An integer of a range is read back from its text. -/
theorem readInt_ofInt {low high n : Int} (hlow : low ≤ n) (hhigh : n ≤ high) :
    readInt low high (ofInt n).toList = .ok n := by
  have hread := readDigits_natChars n.natAbs
  rw [Json.intChars]
  split
  · have habs : -(n.natAbs : Int) = n := by omega
    simp only [readInt, hread, habs, if_true]
    rw [if_neg (by omega), if_neg (by omega)]
  · -- digits begin with no sign
    have habs : (n.natAbs : Int) = n := by omega
    obtain ⟨c, cs, hcs⟩ := List.exists_cons_of_ne_nil (natChars_ne_nil n.natAbs)
    have hdigit : isDigit c = true :=
      isDigit_of_mem_natChars (n := n.natAbs) (by rw [hcs]; exact List.mem_cons_self)
    have hsign : c ≠ '-' ∧ c ≠ '+' := by
      constructor <;>
      · rintro rfl
        exact absurd hdigit (by decide)
    rw [hcs] at hread ⊢
    unfold readInt
    split
    rename_i negative ds hsplit
    split at hsplit
    · rename_i heq
      exact absurd (List.cons.inj heq).1 hsign.1
    · rename_i heq
      exact absurd (List.cons.inj heq).1 hsign.2
    · obtain ⟨rfl, rfl⟩ := Prod.mk.inj hsplit
      simp only [hread, habs, Bool.false_eq_true, if_false]
      rw [if_neg (by omega), if_neg (by omega)]

end DocQuery.Text

namespace DocQuery.Dialect

open Statement (rootAlias)
open Text (isWordChar isWhite sameWord)

/-! ## Lexemes -/

/-- What a query is printed with. -/
inductive Lexeme where
  /-- a word of the dialect, in any case -/
  | keyword (w : String)
  /-- a word that is written as it is -/
  | name (w : String)
  | parameter (name : String)
  | text (s : String)
  | integer (n : Int64)
  | symbol (s : Symbol)
deriving DecidableEq, Repr

/-- A text between quotes.  A backslash stands in front of every quote of the same kind and every
backslash, and may stand in front of any other character. -/
inductive Quoted (quote : Char) : List Char → List Char → Prop
  | nil : Quoted quote [] []
  | plain {cs ds} (c : Char) : c ≠ quote → c ≠ '\\' → Quoted quote cs ds →
      Quoted quote (c :: cs) (c :: ds)
  | escaped {cs ds} (c : Char) : Quoted quote cs ds → Quoted quote (c :: cs) ('\\' :: c :: ds)

namespace Lexeme

/-- How a lexeme is written. -/
inductive Written : Lexeme → List Char → Prop
  | keyword {w cs} : sameWord (String.ofList cs) w = true → Written (.keyword w) cs
  | name (w : String) : Written (.name w) w.toList
  | parameter (p : String) : Written (.parameter p) p.toList
  | text {quote s cs} : quote = '"' ∨ quote = '\x27' → Quoted quote s.toList cs →
      Written (.text s) (quote :: (cs ++ [quote]))
  | integer (n : Int64) : Written (.integer n) (Text.ofInt n.toInt).toList
  | symbol (s : Symbol) : Written (.symbol s) s.text.toList

/-- Which token stands for a lexeme. -/
inductive Stands : Lexeme → Token → Prop
  | keyword {w v} : sameWord v w = true → Stands (.keyword w) (.word v)
  | name (w : String) : Stands (.name w) (.word w)
  | parameter (p : String) : Stands (.parameter p) (.parameter p)
  | text (s : String) : Stands (.text s) (.text s)
  | integer (n : Int64) : Stands (.integer n) (.integer n)
  | symbol (s : Symbol) : Stands (.symbol s) (.symbol s)

/-- Whether no blank is needed on either side. -/
def isMark : Lexeme → Bool
  | symbol .leftParen | symbol .rightParen | symbol .leftBracket | symbol .rightBracket
  | symbol .comma => true
  | _ => false

/-- Words are words, and a parameter is a word behind an at sign. -/
def isSound : Lexeme → Bool
  | keyword w => decide (IsWord w.toList)
  | name w => decide (IsWord w.toList)
  | parameter p =>
    p.toList.head? == some '@' && !p.toList.tail.isEmpty && p.toList.tail.all isWordChar
  | _ => true

/-- One way to write a lexeme. -/
def chars : Lexeme → List Char
  | keyword w => w.toList
  | name w => w.toList
  | parameter p => p.toList
  | text s => '"' :: (s.toList.flatMap Statement.escape ++ ['"'])
  | integer n => (Text.ofInt n.toInt).toList
  | symbol s => s.text.toList

end Lexeme

/-- Lexemes one behind the other, with a blank between two of them, or nothing where one of them is
a mark. -/
inductive Laid : List Lexeme → List Char → Prop
  | last {l cs} : l.Written cs → Laid [l] cs
  | blank {l m ls cs rest} : l.Written cs → Laid (m :: ls) rest →
      Laid (l :: m :: ls) (cs ++ ' ' :: rest)
  | touching {l m ls cs rest} : l.Written cs → (l.isMark || m.isMark) = true →
      Laid (m :: ls) rest → Laid (l :: m :: ls) (cs ++ rest)

/-! ## The lexemes of a query -/

/-- Lexemes with a comma between neighbours. -/
def commaed : List (List Lexeme) → List Lexeme
  | [] => []
  | [ls] => ls
  | ls :: ms :: rest => ls ++ .symbol .comma :: commaed (ms :: rest)

/-- A segment in brackets. -/
def segmentLexemes (s : String) : List Lexeme :=
  [.symbol .leftBracket, .text s, .symbol .rightBracket]

def pathLexemes (segments : List String) : List Lexeme :=
  .name rootAlias :: segments.flatMap segmentLexemes

def Operand.lexemes : Operand → List Lexeme
  | path segments => pathLexemes segments
  | parameter p => [.parameter p]
  | literal (.text s) => [.text s]
  | literal (.int64 n) => [.integer n]
  | literal (.bool true) => [.keyword "true"]
  | literal (.bool false) => [.keyword "false"]
  | literal .null => [.keyword "null"]
  | literal _ => []

/-- Operands with commas between them, in parentheses. -/
def listLexemes (os : List Operand) : List Lexeme :=
  .symbol .leftParen :: (commaed (os.map Operand.lexemes) ++ [.symbol .rightParen])

/-- How loosely a level binds. -/
def Level.looseness : Level → Nat
  | atom => 0
  | negation => 1
  | conjunction => 2
  | disjunction => 3

/-- Parentheses around what binds more loosely than its place allows. -/
def enclose (own place : Level) (ls : List Lexeme) : List Lexeme :=
  if own.looseness ≤ place.looseness then ls
  else .symbol .leftParen :: (ls ++ [.symbol .rightParen])

/-- The lexemes of a condition at a place.  `AND` and `OR` group to the left, so on the right of
one its like needs parentheses. -/
def Condition.lexemes (place : Level) : Condition → List Lexeme
  | operand o => o.lexemes
  | compare a op b => a.lexemes ++ .symbol (symbolOf op) :: b.lexemes
  | oneOf a os => a.lexemes ++ .keyword "IN" :: listLexemes os
  | call f os => .keyword f.word :: listLexemes os
  | not c => enclose .negation place (.keyword "NOT" :: c.lexemes .negation)
  | and a b =>
    enclose .conjunction place (a.lexemes .conjunction ++ .keyword "AND" :: b.lexemes .negation)
  | or a b =>
    enclose .disjunction place (a.lexemes .disjunction ++ .keyword "OR" :: b.lexemes .conjunction)

def Projection.lexemes : Projection → List Lexeme
  | all => [.symbol .star]
  | count name => [.keyword "COUNT", .symbol .leftParen, .integer 1, .symbol .rightParen,
      .keyword "AS", .name name]

def directionLexeme : Direction → Lexeme
  | .ascending => .keyword "ASC"
  | .descending => .keyword "DESC"

def whereLexemes : Option Condition → List Lexeme
  | none => []
  | some c => .keyword "WHERE" :: c.lexemes .disjunction

def orderLexemes : List (List String × Direction) → List Lexeme
  | [] => []
  | es => .keyword "ORDER" :: .keyword "BY" ::
      commaed (es.map fun e => pathLexemes e.1 ++ [directionLexeme e.2])

namespace Select

/-- The lexemes of a query. -/
def lexemes (q : Select) : List Lexeme :=
  .keyword "SELECT" :: (q.projection.lexemes ++ .keyword "FROM" :: .keyword "ROOT" ::
    .name rootAlias :: (whereLexemes q.condition ++ orderLexemes q.order))

/-- A text is a way to print a query. -/
def Prints (q : Select) (s : String) : Prop :=
  Laid q.lexemes s.toList

/-- A query with blanks between all its lexemes. -/
def print (q : Select) : String :=
  String.ofList (Statement.joinChars [' '] (q.lexemes.map Lexeme.chars))

end Select

/-! ## From lexemes to tokens -/

/-- A blank and the marks. -/
def separators : List Char :=
  [' ', '(', ')', '[', ']', ',']

/-- What stands behind a lexeme does not go on with it: nothing, a blank or a mark. -/
def Apart (rest : List Char) : Prop :=
  ∀ c ∈ rest.head?, c ∈ separators

section Tokens

variable {rest : List Char} {ts : List Token}

/-- A text that begins with a separator is set apart from what comes before it. -/
theorem apart_cons {c : Char} (h : c ∈ separators) : Apart (c :: rest) := by
  rintro d ⟨⟩
  exact h

/-- No separator is part of a word or of a number. -/
theorem separators_end {c : Char} (h : c ∈ separators) :
    isWordChar c = false ∧ isNumberChar c = false := by
  have hall : (separators.all fun c => !isWordChar c && !isNumberChar c) = true := by decide
  simpa using List.all_eq_true.mp hall c h

/-- No word goes on there. -/
theorem Apart.ends (h : Apart rest) : Ends rest :=
  fun c hc => (separators_end (h c hc)).1

/-- A number ends where a lexeme is set apart. -/
theorem Apart.number (h : Apart rest) {ds : List Char} (hds : ∀ c ∈ ds, isNumberChar c = true) :
    (ds ++ rest).takeWhile isNumberChar = ds ∧ (ds ++ rest).dropWhile isNumberChar = rest := by
  rw [List.takeWhile_append_of_pos hds, List.dropWhile_append_of_pos hds]
  cases rest with
  | nil => exact ⟨List.append_nil ds, rfl⟩
  | cons c cs => simp [(separators_end (h c rfl)).2]

/-- A word in another case is a word. -/
theorem isWord_of_sameWord {cs : List Char} {w : String} (hw : IsWord w.toList)
    (h : sameWord (String.ofList cs) w = true) : IsWord cs := by
  have hchars : cs.map Text.lowerChar = w.toList.map Text.lowerChar := by
    rw [sameWord, beq_iff_eq, Text.lower, Text.lower, String.toList_ofList, String.ofList_inj] at h
    exact h
  cases hws : w.toList with
  | nil =>
    rw [hws] at hw
    exact hw.elim
  | cons d ds =>
    rw [hws] at hw hchars
    cases cs with
    | nil => cases hchars
    | cons c cs =>
      obtain ⟨hfirst, hrest⟩ := List.cons.inj hchars
      obtain ⟨hd, hds⟩ := hw
      obtain ⟨hletter, -, hunder⟩ := Text.wordChar_lowerChar c
      obtain ⟨hletter', -, hunder'⟩ := Text.wordChar_lowerChar d
      refine ⟨?_, ?_⟩
      · rw [← hletter, ← hunder, hfirst, hletter', hunder']
        exact hd
      · intro x hx
        have hmem : Text.lowerChar x ∈ ds.map Text.lowerChar := by
          rw [← hrest]
          exact List.mem_map_of_mem hx
        obtain ⟨y, hy, hxy⟩ := List.mem_map.mp hmem
        rw [← (Text.wordChar_lowerChar x).2.1, ← hxy, (Text.wordChar_lowerChar y).2.1]
        exact hds y hy

/-- Quotes and backslashes inside a text do not end it. -/
theorem scanText_quoted {quote : Char} (hquote : quote ≠ '\\') {cs ds : List Char}
    (h : Quoted quote cs ds) : scanText quote (ds ++ quote :: rest) = .ok (cs, rest) := by
  induction h with
  | nil =>
    rw [List.nil_append, scanText.eq_def]
    split
    · rename_i heq
      cases heq
    · rename_i heq
      exact absurd (List.cons.inj heq).1 hquote
    · rename_i heq
      exact absurd (List.cons.inj heq).1 hquote
    · rename_i c cs' _ _ heq
      obtain ⟨rfl, rfl⟩ := List.cons.inj heq
      rw [if_pos rfl]
  | plain c hc hback _ ih =>
    rw [List.cons_append, scanText.eq_def]
    split
    · rename_i heq
      cases heq
    · rename_i heq
      exact absurd (List.cons.inj heq).1 hback
    · rename_i heq
      exact absurd (List.cons.inj heq).1 hback
    · rename_i heq
      obtain ⟨rfl, rfl⟩ := List.cons.inj heq
      rw [if_neg hc, ih]
      rfl
  -- behind a backslash any character is taken as it is
  | @escaped cs ds c _ ih =>
    show (scanText quote (ds ++ quote :: rest)).map _ = _
    rw [ih]
    rfl

theorem tokens_text {quote : Char} (hquote : quote = '"' ∨ quote = '\x27') {s : String}
    {cs : List Char} (h : Quoted quote s.toList cs) (ht : tokens rest = .ok ts) :
    tokens (quote :: (cs ++ quote :: rest)) = .ok (.text s :: ts) := by
  have hscan : scan quote (cs ++ quote :: rest) = (scanText quote (cs ++ quote :: rest)).map
      fun p => (.text (String.ofList p.1), p.2) := by
    rcases hquote with rfl | rfl <;> rfl
  have hback : quote ≠ '\\' := by
    rcases hquote with rfl | rfl <;> decide
  have hwhite : Text.isWhite quote = false := by
    rcases hquote with rfl | rfl <;> decide
  rw [scanText_quoted hback h] at hscan
  have htoken := tokens_cons hwhite hscan ht
  rwa [String.ofList_toList] at htoken

/-- A symbol that nothing behind it makes longer. -/
theorem tokens_apart_symbol (s : Symbol) (hrest : Apart rest) (ht : tokens rest = .ok ts) :
    tokens (s.text.toList ++ rest) = .ok (.symbol s :: ts) := by
  have hsingle : ∀ {c : Char}, Text.isWhite c = false →
      (∀ d ∈ separators, ∀ cs, scan c (d :: cs) = .ok (.symbol s, d :: cs)) →
      scan c [] = .ok (.symbol s, []) → tokens (c :: rest) = .ok (.symbol s :: ts) := by
    intro c hwhite hcons hnil
    refine tokens_cons hwhite ?_ ht
    cases rest with
    | nil => exact hnil
    | cons d cs => exact hcons d (hrest d rfl) cs
  have hdouble : ∀ {c d : Char}, Text.isWhite c = false →
      scan c (d :: rest) = .ok (.symbol s, rest) →
      tokens (c :: d :: rest) = .ok (.symbol s :: ts) :=
    fun hwhite hscan => tokens_cons hwhite hscan ht
  cases s with
  | ne => exact hdouble (by decide) rfl
  | le => exact hdouble (by decide) rfl
  | ge => exact hdouble (by decide) rfl
  | _ =>
    refine hsingle (by decide) ?_ rfl
    simp only [separators, List.forall_mem_cons]
    exact ⟨fun _ => rfl, fun _ => rfl, fun _ => rfl, fun _ => rfl, fun _ => rfl, fun _ => rfl,
      fun _ h => absurd h List.not_mem_nil⟩

/-- The text of an integer begins a number and goes on with digits. -/
theorem ofInt_digits (n : Int) (rest : List Char) : ∃ c ds, (Text.ofInt n).toList = c :: ds
    ∧ startsNumber c (ds ++ rest) = true ∧ (c = '-' ∨ Text.isDigit c = true)
    ∧ ∀ d ∈ ds, Text.isDigit d = true := by
  have hall : ∀ d ∈ Text.natChars n.natAbs, Text.isDigit d = true :=
    fun _ => Text.isDigit_of_mem_natChars
  obtain ⟨c, ds, hcs⟩ := List.exists_cons_of_ne_nil (Text.natChars_ne_nil n.natAbs)
  rw [hcs] at hall
  obtain ⟨hc, hds⟩ := List.forall_mem_cons.mp hall
  rw [Json.intChars, hcs]
  split
  · exact ⟨'-', c :: ds, rfl, hc, .inl rfl, hall⟩
  · refine ⟨c, ds, rfl, ?_, .inr hc, hds⟩
    rw [startsNumber, hc]
    rfl

/-- An integer, from the lowest to the highest of 64 bits. -/
theorem tokens_integer (n : Int64) (hrest : Apart rest) (ht : tokens rest = .ok ts) :
    tokens ((Text.ofInt n.toInt).toList ++ rest) = .ok (.integer n :: ts) := by
  have hread : Text.readInt Int64.minValue.toInt Int64.maxValue.toInt (Text.ofInt n.toInt).toList
      = .ok n.toInt := Text.readInt_ofInt n.le_toInt n.toInt_le
  obtain ⟨c, ds, hchars, hstarts, hc, hds⟩ := ofInt_digits n.toInt rest
  rw [hchars] at hread ⊢
  -- a minus sign and digits are neither letters nor points
  have hfirst : isWhite c = false ∧ (Text.isLetter c || c == '_') = false ∧ c ≠ '@' ∧ c ≠ '.' := by
    rcases hc with rfl | hc
    · decide
    · refine ⟨Text.isWhite_of_isWordChar (Text.isWordChar_of_isDigit hc), ?_, ?_, ?_⟩
      · exact Text.isLetter_of_isDigit hc
      · rintro rfl
        exact absurd hc (by decide)
      · rintro rfl
        exact absurd hc (by decide)
  obtain ⟨hwhite, hletter, hat, hpoint⟩ := hfirst
  have hno : (c :: ds).contains '.' = false := by
    rw [List.contains_eq_mem, decide_eq_false_iff_not, List.mem_cons, not_or]
    exact ⟨fun h => hpoint h.symm, fun h => absurd (hds _ h) (by decide)⟩
  have htoken : numberToken (c :: ds) = .ok (.integer n) := by
    rw [numberToken, hno]
    simp only [Bool.false_eq_true, if_false, hread, Int64.ofInt_toInt]
  have hdigits : ∀ d ∈ ds, isNumberChar d = true := fun d hd => by
    rw [isNumberChar, hds d hd]
    rfl
  have hnumber := hrest.number hdigits
  have hscan : scan c (ds ++ rest) = .ok (.integer n, rest) := by
    rw [scan, hletter, if_neg Bool.false_ne_true, if_neg hat, if_pos hstarts, hnumber.1,
      hnumber.2, htoken]
    rfl
  exact tokens_cons hwhite hscan ht

/-- A parameter of any name. -/
theorem tokens_named {p : String} (hp : (Lexeme.parameter p).isSound = true) (hrest : Ends rest)
    (ht : tokens rest = .ok ts) : tokens (p.toList ++ rest) = .ok (.parameter p :: ts) := by
  simp only [Lexeme.isSound, Bool.and_eq_true, beq_iff_eq, Bool.not_eq_true',
    List.all_eq_true] at hp
  obtain ⟨⟨hat, hne⟩, hname⟩ := hp
  obtain ⟨name, hchars⟩ : ∃ name, p.toList = '@' :: name := List.head?_eq_some_iff.mp hat
  rw [hchars, List.tail_cons] at hne hname
  have hscan : scan '@' (name ++ rest) = .ok (.parameter p, rest) := by
    rw [scan, if_neg (by decide), if_pos rfl, takeWhile_word hname hrest,
      dropWhile_word hname hrest]
    show (if name.isEmpty = true then _ else _) = _
    rw [hne, ← hchars, String.ofList_toList]
    rfl
  rw [hchars]
  exact tokens_cons (by decide) hscan ht

/-- A mark is cut off whatever stands behind it. -/
theorem tokens_mark {l : Lexeme} (hl : l.isMark = true) : ∃ c s, l = .symbol s
    ∧ s.text.toList = [c] ∧ c ∈ separators
    ∧ ∀ {rest ts}, tokens rest = .ok ts → tokens (c :: rest) = .ok (.symbol s :: ts) := by
  unfold Lexeme.isMark at hl
  split at hl
  · exact ⟨'(', _, rfl, rfl, by decide, tokens_symbol (by simp)⟩
  · exact ⟨')', _, rfl, rfl, by decide, tokens_symbol (by simp)⟩
  · exact ⟨'[', _, rfl, rfl, by decide, tokens_symbol (by simp)⟩
  · exact ⟨']', _, rfl, rfl, by decide, tokens_symbol (by simp)⟩
  · exact ⟨',', _, rfl, rfl, by decide, tokens_symbol (by simp)⟩
  · cases hl

/-- What is written for a lexeme is cut into a token that stands for it. -/
theorem tokens_written {l : Lexeme} {cs : List Char} (hw : l.Written cs) (hl : l.isSound = true)
    (hrest : l.isMark = true ∨ Apart rest) (ht : tokens rest = .ok ts) :
    ∃ t, l.Stands t ∧ tokens (cs ++ rest) = .ok (t :: ts) := by
  by_cases hmark : l.isMark = true
  · obtain ⟨c, s, rfl, hchars, -, htokens⟩ := tokens_mark hmark
    cases hw
    rw [hchars]
    exact ⟨_, .symbol s, htokens ht⟩
  replace hrest := hrest.resolve_left hmark
  cases hw with
  | @keyword w cs hcase =>
    have hword := isWord_of_sameWord (of_decide_eq_true hl) hcase
    exact ⟨_, .keyword hcase, tokens_word hword hrest.ends ht⟩
  | name w =>
    have htoken := tokens_word (of_decide_eq_true hl) hrest.ends ht
    rw [String.ofList_toList] at htoken
    exact ⟨_, .name w, htoken⟩
  | parameter p => exact ⟨_, .parameter p, tokens_named hl hrest.ends ht⟩
  | @text quote s cs hquote hcs =>
    refine ⟨_, .text s, ?_⟩
    rw [List.cons_append, List.append_assoc]
    exact tokens_text hquote hcs ht
  | integer n => exact ⟨_, .integer n, tokens_integer n hrest ht⟩
  | symbol s => exact ⟨_, .symbol s, tokens_apart_symbol s hrest ht⟩

end Tokens

/-! ## All tokens of a text -/

/-- What is laid down from a mark on begins with it. -/
theorem apart_of_laid {m : Lexeme} {ls : List Lexeme} {cs : List Char} (h : Laid (m :: ls) cs)
    (hm : m.isMark = true) : Apart cs := by
  obtain ⟨c, s, rfl, hchars, hc, -⟩ := tokens_mark hm
  have hfront : ∀ {ds rest}, (Lexeme.symbol s).Written ds → Apart (ds ++ rest) := by
    rintro _ rest ⟨⟩
    rw [hchars]
    exact apart_cons hc
  cases h with
  | last hw =>
    have hend : Apart (cs ++ []) := hfront hw
    rwa [List.append_nil] at hend
  | blank hw _ => exact hfront hw
  | touching hw _ _ => exact hfront hw

/-- **The tokens of what is laid down stand for its lexemes, one for one.** -/
theorem tokens_laid {ls : List Lexeme} {cs : List Char} (h : Laid ls cs)
    (hsound : ∀ l ∈ ls, l.isSound = true) :
    ∃ ts, Paired Lexeme.Stands ls ts ∧ tokens cs = .ok ts := by
  induction h with
  | @last l cs hw =>
    have hend : Apart [] := fun _ hc => nomatch hc
    obtain ⟨t, ht, htokens⟩ := tokens_written hw (hsound l (by simp)) (.inr hend) tokens_nil
    rw [List.append_nil] at htokens
    exact ⟨_, .cons ht .nil, htokens⟩
  | @blank l m ls cs rest hw _ ih =>
    obtain ⟨hl, hls⟩ := List.forall_mem_cons.mp hsound
    obtain ⟨ts, hts, hread⟩ := ih hls
    have hblank : tokens (' ' :: rest) = .ok ts := by rw [tokens_blank, hread]
    obtain ⟨t, ht, htokens⟩ := tokens_written hw hl (.inr (apart_cons (by decide))) hblank
    exact ⟨_, .cons ht hts, htokens⟩
  | @touching l m ls cs rest hw hmark hlaid ih =>
    obtain ⟨hl, hls⟩ := List.forall_mem_cons.mp hsound
    obtain ⟨ts, hts, hread⟩ := ih hls
    -- the mark is the lexeme itself, or what follows begins with it
    have hapart : l.isMark = true ∨ Apart rest :=
      ((Bool.or_eq_true _ _).mp hmark).imp_right (apart_of_laid hlaid)
    obtain ⟨t, ht, htokens⟩ := tokens_written hw hl hapart hread
    exact ⟨_, .cons ht hts, htokens⟩

end DocQuery.Dialect
